import HerdrBoard.Lifecycle.Sheltering

/-!
# Creating a card with its run

The guard of a creation reads in a lock scope of its own. The scope that inserts the card and its
run does not look again. -/

open Lib HerdrBoard.Core HerdrBoard.Daemon HerdrBoard.Projects

namespace HerdrBoard.Lifecycle

variable {cfg : Config} {env : Env} {conn : Conn} {db db' : Db}

/-- The board a new card goes to. -/
def destination (p : CardCreateParams) : Int := p.boardId.getD BOARD_ID

/-- The column a new card enters starts runs. -/
def StartsRun (db : Db) (p : CardCreateParams) : Prop :=
  ∃ default column, (db.listColumns (destination p)).head? = some default ∧
    db.column? (p.columnId.getD default.id) = some column ∧
    (decideEntry column .idle false).enqueue = true

/-- The guard of a creation lets active boards of active projects pass. -/
theorem createGuard_ok_iff {p : CardCreateParams} {board : Board}
    (hboard : db.board? (destination p) = some board) :
    createGuard p db = .ok () db ↔ ActiveSite db.toTables (destination p) := by
  obtain ⟨project, hproject⟩ :=
    Option.isSome_iff_exists.mp (db.foreignKeysOk.1 board (Table.mem_of_find? hboard))
  have hproject : db.project? board.projectId = some project := hproject
  have hguard : createGuard p db = .ok () db ↔
      board.archivedAt.isSome = false ∧ project.archivedAt.isSome = false := by
    unfold destination at hboard
    simp [createGuard, hboard, hproject]
  rw [hguard]
  constructor
  · rintro ⟨hb, hP⟩
    exact activeSite_of_rows hboard hb hproject hP
  · rintro ⟨P, hsite, hactive⟩
    have hself : db.BoardIs (destination p) board.projectId board.archivedAt.isSome :=
      Tables.boardIs_iff.mpr ⟨board, Table.mem_of_find? hboard, Table.key_of_find? hboard, rfl, rfl⟩
    obtain ⟨rfl, hb⟩ := hsite.unique hself
    have hP : db.ProjectIs board.projectId project.archivedAt.isSome :=
      Tables.projectIs_iff.mpr
        ⟨project, Table.mem_of_find? hproject, Table.key_of_find? hproject, rfl⟩
    exact ⟨hb.symm, hP.unique hactive⟩

theorem enqueueRunTx_opens {cardId runId : Int} {run : EnqueueRun}
    (h : enqueueRunTx conn cardId run db = .ok runId db') :
    OpenOn db'.toTables cardId ∧ db'.homes = db.homes ∧ db'.sites = db.sites := by
  obtain ⟨id, db₁, hinsert, h⟩ := bind_ok.mp h
  have hrest : KeepsTables tenancy (do
      lifecycleFault conn .enqueueAfterRunInsert
      let changed ← updateCards (fun c => c.id == cardId) fun c =>
        { c with
          status := .queued, awaitingReason := none, sessionId := run.sessionId <|> c.sessionId,
                 updatedAt := conn.now }
      refuse (changed ≠ 1) (.notFound s!"card {cardId}")
      pure id) := by
    refine (readOnly_respects_fault _).bind fun _ => ?_
    refine Respects.bind (keeps_tenancy_updateCards fun _ => ⟨rfl, rfl⟩) fun _ => ?_
    exact (readOnly_refuse _ _).respects.bind fun _ => respects_pure _
  have hsame := hrest.ok h
  simp only [SameBy, tenancy, Prod.mk.injEq] at hsame
  obtain ⟨htab, -⟩ := insertRun_ok.mp hinsert
  have hopen : OpenOn db₁.toTables cardId := by
    refine openOn_iff.mpr ⟨queuedRun cardId run db.runs.nextKey, ?_, rfl, rfl⟩
    rw [htab]
    exact Table.mem_insert_self fun _ => rfl
  refine ⟨?_, hsame.1.trans (by rw [htab]; rfl), hsame.2.1.trans (by rw [htab]; rfl)⟩
  unfold OpenOn at hopen ⊢
  rwa [hsame.2.2]

/-- A card created with a run: first the card alone, on its board, then its run. -/
structure CreatesWithRun (db db' : Db) (p : CardCreateParams) (cardId : Int) (db₁ : Db) : Prop where
  calm : CalmDb (fun _ => False) db db₁
  home : (cardId, destination p, false) ∈ db₁.homes
  sites : db₁.sites = db.sites
  opens : ∃ conn run runId, enqueueRunTx conn cardId run db₁ = .ok runId db'

theorem createsWithRun_of_tx {p : CardCreateParams} {run : EnqueueRun} {columnId position : Int}
    {ids : Int × Int} (h : (do
      let cardId ← insertCard (newCard conn p (destination p) columnId position)
      if p.position.isSome then placeCardInColumnTx cardId columnId p.position else pure ()
      let runId ← enqueueRunTx conn cardId run
      pure (cardId, runId) : StoreM (Int × Int)) db = .ok ids db') :
        ∃ db₁, CreatesWithRun db db' p ids.1 db₁ := by
  obtain ⟨cardId, db₁, hinsert, h⟩ := bind_ok.mp h
  -- the card may be placed before its run starts
  obtain ⟨db₂, hplaced, h⟩ : ∃ db₂, tenancy db₂.toTables = tenancy db₁.toTables ∧
      (do
        let runId ← enqueueRunTx conn cardId run
        pure (cardId, runId) : StoreM (Int × Int)) db₂ = .ok ids db' := by
    split at h
    · obtain ⟨_, db₂, hplace, h⟩ := bind_ok.mp h
      exact ⟨db₂, (keeps_placeCardInColumnTx placeBlind_tenancy _ _ _).ok hplace, h⟩
    · exact ⟨db₁, rfl, h⟩
  obtain ⟨runId, _, hopens, h⟩ := bind_ok.mp h
  obtain ⟨rfl, rfl⟩ := pure_ok.mp h
  obtain ⟨htab, hkey⟩ := insertCard_ok.mp hinsert
  have hkept : db₂.homes = db₁.homes ∧ db₂.sites = db₁.sites ∧ db₂.occupants = db₁.occupants := by
    simpa [tenancy] using hplaced
  refine ⟨db₂, (calm_insertCard.ok hinsert).trans (calm_of_tenancy hplaced), ?_, ?_,
    ⟨conn, run, runId, hopens⟩⟩
  · rw [hkept.1, hkey]
    refine mem_homes.mpr ⟨newCard conn p (destination p) columnId position db.cards.nextKey, ?_,
      rfl, rfl, rfl⟩
    rw [htab]
    exact Table.mem_insert_self fun _ => rfl
  · rw [hkept.2.1, htab]
    rfl

theorem createsWithRun_of_ok {p : CardCreateParams} {run : EnqueueRun} {created : Card × Run}
    (h : createCardAndEnqueueUow conn p run db = .ok created db') :
    (∃ board, db.board? (destination p) = some board) ∧
      ∃ cardId db₁, CreatesWithRun db db' p cardId db₁ := by
  obtain ⟨board, _, hboard, h⟩ := bind_ok.mp h
  obtain ⟨hfind, rfl⟩ := getBoard_ok.mp hboard
  refine ⟨⟨board, hfind⟩, ?_⟩
  obtain ⟨default, _, hdefault, h⟩ := bind_ok.mp h
  cases (readOnly_defaultColumnId _).ok hdefault
  obtain ⟨_, _, hcolumn, h⟩ := bind_ok.mp h
  cases (readOnly_requireColumn _).ok hcolumn
  obtain ⟨_, _, hrefuse, h⟩ := bind_ok.mp h
  cases (readOnly_refuse _ _).ok hrefuse
  obtain ⟨_, _, hrefuse, h⟩ := bind_ok.mp h
  cases (readOnly_refuse _ _).ok hrefuse
  obtain ⟨_, _, hget, h⟩ := bind_ok.mp h
  obtain ⟨rfl, rfl⟩ := get_ok.mp hget
  obtain ⟨ids, t, htx, h⟩ := bind_ok.mp h
  obtain ⟨card, _, hcard, h⟩ := bind_ok.mp h
  cases (readOnly_requireCard _).ok hcard
  obtain ⟨_, _, hrun, h⟩ := bind_ok.mp h
  cases (readOnly_getRun _).ok hrun
  obtain ⟨-, rfl⟩ := pure_ok.mp h
  exact ⟨ids.1, createsWithRun_of_tx (transaction_ok.mp htx)⟩

theorem CreatesWithRun.keepsShelter {p : CardCreateParams} {cardId : Int} {db₁ : Db}
    (h : CreatesWithRun db db' p cardId db₁) (hsite : ActiveSite db.toTables (destination p)) :
    KeepsShelter db db' := by
  obtain ⟨conn, run, runId, hrun⟩ := h.opens
  have hcalm := (calm_enqueueRunTx (C := fun c => c = cardId) run rfl).ok hrun
  refine trans_of KeepsShelter (keepsShelter_of_idle h.calm) (keepsShelter_of_calm hcalm ?_)
  rintro c rfl
  obtain ⟨P, hboard, hproject⟩ := hsite
  refine ⟨destination p, P, h.home, ?_, ?_⟩
  · unfold Tables.BoardIs
    rwa [h.sites]
  · unfold Tables.ProjectIs
    rwa [h.sites]

/-- A run that starts on an archived board, or in an archived project. -/
theorem CreatesWithRun.breaks {p : CardCreateParams} {cardId : Int} {db₁ : Db}
    (h : CreatesWithRun db db' p cardId db₁) (hsite : ¬ActiveSite db.toTables (destination p)) :
    ¬AllSheltered db'.toTables := by
  obtain ⟨conn, run, runId, hrun⟩ := h.opens
  obtain ⟨hopen, hhomes, hsites⟩ := enqueueRunTx_opens hrun
  intro hall
  obtain ⟨b, P, hhome, hboard, hproject⟩ := hall cardId hopen
  rw [hhomes] at hhome
  obtain ⟨card, hcard, hid, rfl, -⟩ := mem_homes.mp hhome
  obtain ⟨card', hcard', hid', hb, -⟩ := mem_homes.mp h.home
  cases Table.eq_of_key_eq hcard hcard' (hid.trans hid'.symm)
  have hsame : db'.sites = db.sites := hsites.trans h.sites
  refine hsite ⟨P, ?_, ?_⟩
  · unfold Tables.BoardIs at hboard ⊢
    rwa [hsame, hb] at hboard
  · unfold Tables.ProjectIs at hproject ⊢
    rwa [hsame] at hproject

theorem pendingCreateCard_ok {p : CardCreateParams} {pending : Card}
    (h : pendingCreateCard env p db = .ok pending db') :
    pending.status = .idle ∧ ∃ default, (db.listColumns (destination p)).head? = some default ∧
      pending.columnId = p.columnId.getD default.id := by
  simp only [pendingCreateCard, defaultColumnId, bind_ok, get_ok, okOr_ok, requireColumn_ok,
    refuse_ok, pure_ok] at h
  obtain ⟨_, _, ⟨_, _, ⟨rfl, rfl⟩, default, _, ⟨hdefault, rfl⟩, rfl, rfl⟩, _, _, ⟨-, rfl⟩, _, _, ⟨-,
    rfl⟩, rfl, -⟩ := h
  exact ⟨rfl, default, hdefault, rfl⟩

theorem keepsShelter_createCardAndEnqueueUow {p : CardCreateParams} {run : EnqueueRun}
    (hsite : ∀ board, db.board? (destination p) = some board →
      ActiveSite db.toTables (destination p)) :
    KeepsShelter db (finalState (createCardAndEnqueueUow conn p run db)) := by
  refine (readOnly_getBoard _).bind_at fun board hboard =>
    (readOnly_defaultColumnId _).bind_at fun _ _ => ?_
  refine (readOnly_requireColumn _).bind_at fun _ _ => (readOnly_refuse _ _).bind_at fun _ _ => ?_
  refine (readOnly_refuse _ _).bind_at fun _ _ => readOnly_get.bind_at fun _ _ => ?_
  have hanswer (ids : Int × Int) : ReadOnly (do
      let card ← requireCard ids.1
      let run ← getRun ids.2
      pure (card, run) : StoreM (Card × Run)) :=
    (readOnly_requireCard _).bind fun _ => (readOnly_getRun _).bind fun _ => readOnly_pure _
  refine bind_at ((atomic_transaction _).at fun ids t h => ?_) fun ids t _ =>
    (hanswer ids).respects t
  obtain ⟨db₁, hcreates⟩ := createsWithRun_of_tx (transaction_ok.mp h)
  exact hcreates.keepsShelter (hsite board (getBoard_ok.mp hboard).1)

theorem startsRun_of_pending {p : CardCreateParams} {pending : Card} {column : Column}
    (hpending : pendingCreateCard env p db = .ok pending db)
    (hcolumn : requireColumn pending.columnId db = .ok column db) :
    StartsRun db p ↔ (decideEntry column pending.status false).enqueue = true := by
  obtain ⟨hstatus, default, hdefault, hcolumnId⟩ := pendingCreateCard_ok hpending
  have hfind := (requireColumn_ok.mp hcolumn).1
  rw [hcolumnId] at hfind
  rw [hstatus]
  constructor
  · rintro ⟨default', column', hdefault', hfind', henqueue⟩
    cases hdefault.symm.trans hdefault'
    cases hfind.symm.trans hfind'
    exact henqueue
  · exact fun henqueue => ⟨default, column, hdefault, hfind, henqueue⟩

/-- A creation whose guard would still pass keeps open runs sheltered. -/
theorem keepsShelter_createEntering {p : CardCreateParams}
    (hguard : StartsRun db p → createGuard p db = .ok () db) :
    KeepsShelter db (finalState (createEntering cfg env p db)) := by
  refine (readOnly_pendingCreateCard p).bind_at fun pending hpending => ?_
  refine (readOnly_requireColumn _).bind_at fun column hcolumn => ?_
  split
  next henqueue =>
    refine (readOnly_prepareEnqueueValues _ _ _).bind_at fun prepared _ => ?_
    rw [finalState_bind_readOnly fun _ => readOnly_pure _]
    refine keepsShelter_createCardAndEnqueueUow fun board hboard => ?_
    exact (createGuard_ok_iff hboard).mp
      (hguard ((startsRun_of_pending hpending hcolumn).mpr henqueue))
  next =>
    rw [finalState_bind_readOnly fun _ => readOnly_pure _]
    exact keepsShelter_of_idle (calm_createCard p db)

/-- A creation with a run whose guard would no longer pass leaves an open run that is
not sheltered. -/
theorem createEntering_breaks {p : CardCreateParams} {entered : Card × Bool}
    (hstarts : StartsRun db p)
    (hguard : createGuard p db ≠ .ok () db) (h : createEntering cfg env p db = .ok entered db') :
    ¬AllSheltered db'.toTables := by
  obtain ⟨pending, _, hpending, h⟩ := bind_ok.mp h
  cases (readOnly_pendingCreateCard p).ok hpending
  obtain ⟨column, _, hcolumn, h⟩ := bind_ok.mp h
  cases (readOnly_requireColumn _).ok hcolumn
  rw [if_pos ((startsRun_of_pending hpending hcolumn).mp hstarts)] at h
  obtain ⟨prepared, _, hprepared, h⟩ := bind_ok.mp h
  cases (readOnly_prepareEnqueueValues _ _ _).ok hprepared
  obtain ⟨created, _, hcreated, h⟩ := bind_ok.mp h
  obtain ⟨-, rfl⟩ := pure_ok.mp h
  obtain ⟨⟨board, hboard⟩, cardId, db₁, hcreates⟩ := createsWithRun_of_ok hcreated
  exact hcreates.breaks fun hsite => hguard ((createGuard_ok_iff hboard).mpr hsite)

theorem keepsShelter_cardCreate {p : CardCreateParams} {d : DaemonState}
    (hguard : StartsRun d.db p → createGuard p d.db = .ok () d.db) :
    KeepsShelter d.db (finalState (cardCreate cfg env p d)).db := by
  have hafter : ∀ entered d,
      (finalState ((do modify (forgetHops entered); pure entered.1 : DaemonM Card) d)).db = d.db :=
    fun entered d => forgetHops_db entered d
  have henter : KeepsShelter d.db (finalState (createEntering cfg env p d.db)) :=
    keepsShelter_createEntering hguard
  rw [← db_store_bind hafter] at henter
  unfold cardCreate
  generalize (validateCardValues _ _ _ _ _ _ _ _).mapError _ = valid
  cases valid with
  | error e => exact id
  | ok _ => exact henter

end HerdrBoard.Lifecycle
