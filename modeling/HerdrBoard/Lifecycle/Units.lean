import HerdrBoard.Daemon.Emissions
import HerdrBoard.Lifecycle.Timeouts

/-!
# Units of work

A unit of work that is rejected leaves the store, the scheduler and what was emitted as they were.
Only a registration has something to undo outside the daemon: it kills the process it was for. -/

open Lib HerdrBoard.Core HerdrBoard.Daemon

namespace HerdrBoard.Lifecycle

variable {cfg : Config} {env : Env} {conn : Conn} {db db' : Db}

/-! ## Rows that are read back -/

theorem hasCard_update {t : Tables} {p : Card → Bool} {f : Card → Card} {hkey} (id : Int) :
    Tables.hasCard { t with cards := t.cards.update p f hkey } id = t.hasCard id := by
  simp [Tables.hasCard, Table.find?_update]

theorem keeps_hasCard_updateCards {id : Int} {p : Card → Bool} {f : Card → Card} {hkey} :
    KeepsTables (fun t => t.hasCard id) (updateCards p f hkey) :=
  keeps_updateCards fun _ => hasCard_update id

theorem positionBlind_hasCard (id : Int) :
    PositionBlind fun t => t.hasCard id := fun _ _ _ => hasCard_update id

theorem requireCard_of_hasCard {id : Int} (h : db.hasCard id = true) :
    ∃ card, requireCard id db = .ok card db := by
  obtain ⟨card, hcard⟩ := Option.isSome_iff_exists.mp h
  exact ⟨card, requireCard_run hcard⟩

theorem hasCard_of_requireCard {id : Int} {card : Card} (h : requireCard id db = .ok card db') :
    db.hasCard id = true :=
  Option.isSome_iff_exists.mpr ⟨card, (requireCard_ok.mp h).1⟩

/-- The queued run and its card can be read back. -/
theorem reads_enqueueRunTx {cardId id : Int} {p : EnqueueRun}
    (h : enqueueRunTx conn cardId p db = .ok id db') :
    (∃ card, requireCard cardId db' = .ok card db') ∧ ∃ run, getRun id db' = .ok run db' := by
  simp only [enqueueRunTx, bind_ok, insertRun_ok, updateCards_ok, refuse_ok, pure_ok] at h
  obtain ⟨_, inserted, ⟨hinserted, rfl⟩, _, _, hfault, _, updated, ⟨hupdated, -⟩, _, _, ⟨-, rfl⟩,
    rfl, rfl⟩ := h
  cases lifecycleFault_ok hfault
  have hmem : queuedRun cardId p db.runs.nextKey ∈ updated.runs := by
    rw [hupdated, hinserted]
    exact Table.mem_insert_self fun _ => rfl
  obtain ⟨card, hcard, hid⟩ := Db.run_card hmem
  have hfound : updated.card? cardId = some card := Table.find?_eq_some.mpr ⟨hcard, hid⟩
  exact ⟨⟨card, requireCard_run hfound⟩, _, getRun_run (Table.find?_eq_some.mpr ⟨hmem, rfl⟩)⟩

/-! ## Units of the store -/

theorem enqueueRunUow_atomic (p : EnqueueRun) : Atomic (enqueueRunUow conn p) := by
  refine (readOnly_requireCard _).bind_atomic fun card =>
    (readOnly_requireColumn _).bind_atomic fun column => ?_
  refine (readOnly_refuse _ _).bind_atomic fun _ =>
    (atomic_transaction _).bind_succeeds fun db id db' h => ?_
  obtain ⟨-, run, hrun⟩ := reads_enqueueRunTx (transaction_ok.mp h)
  exact ⟨run, db', hrun⟩

theorem promoteCapturedSessionUow_atomic (runId : Int) (sessionId : String) :
    Atomic (promoteCapturedSessionUow conn runId sessionId) := by
  refine (readOnly_refuse _ _).bind_atomic fun _ =>
    (atomic_transaction _).bind_succeeds fun db u db' h => ?_
  simp only [transaction_ok, bind_ok, get_ok, okOr_ok, updateRuns_ok, updateCards_ok, pure_ok] at h
  obtain ⟨_, _, ⟨rfl, rfl⟩, run, _, ⟨hrun, rfl⟩, _, captured, hcaptured, _, _, hfault, _, updated,
    ⟨hupdated, -⟩, -, rfl⟩ := h
  cases lifecycleFault_ok hfault
  have hfind : db.runs.find? runId = some run := (Option.filter_eq_some_iff.mp hrun).1
  have hsome : (updated.run? runId).isSome := by
    rw [Db.run?, hupdated]
    show (captured.runs.find? runId).isSome
    rw [hcaptured]
    simp [Table.find?_update, hfind]
  obtain ⟨found, hfound⟩ := Option.isSome_iff_exists.mp hsome
  exact ⟨found, updated, getRun_run hfound⟩

/-- A transaction that ends with the queued run of a card, and reads both back. -/
theorem atomic_enqueues {α : Type} {tx : StoreM α} {cardOf runOf : α → Int}
    (h : ∀ db a db', tx db = .ok a db' →
      ∃ run mid, enqueueRunTx conn (cardOf a) run mid = .ok (runOf a) db') :
    Atomic (do
      let a ← transaction tx
      let card ← requireCard (cardOf a)
      let run ← getRun (runOf a)
      pure (card, run) : StoreM (Card × Run)) := by
  refine (atomic_transaction _).bind_succeeds fun db a db' htx => ?_
  obtain ⟨run, mid, hqueued⟩ := h db a db' (transaction_ok.mp htx)
  obtain ⟨⟨card, hcard⟩, run, hrun⟩ := reads_enqueueRunTx hqueued
  exact ⟨(card, run), db', bind_ok.mpr ⟨card, db', hcard, bind_ok.mpr ⟨run, db', hrun, rfl⟩⟩⟩

theorem moveCardAndEnqueueUow_atomic (id column : Int) (position : Option Int) (run : EnqueueRun) :
    Atomic (moveCardAndEnqueueUow conn id column position run) := by
  refine (readOnly_requireCard _).bind_atomic fun card =>
    (readOnly_requireColumn _).bind_atomic fun target => ?_
  refine (readOnly_refuse _ _).bind_atomic fun _ => (readOnly_refuse _ _).bind_atomic fun _ => ?_
  refine readOnly_get.bind_atomic fun db => (readOnly_refuse _ _).bind_atomic fun _ => ?_
  refine @atomic_enqueues conn Int _ (fun _ => id) (fun runId => runId) fun db runId db' h => ?_
  obtain ⟨_, _, -, h⟩ := bind_ok.mp h
  obtain ⟨_, _, -, h⟩ := bind_ok.mp h
  rcases ite_ok.mp h with ⟨-, h⟩ | ⟨-, h⟩
  · obtain ⟨_, mid, -, h⟩ := bind_ok.mp h
    exact ⟨run, mid, h⟩
  · exact ⟨run, _, h⟩

theorem transferCardAndEnqueueUow_atomic (id board column : Int) (position : Option Int)
    (run : EnqueueRun) : Atomic (transferCardAndEnqueueUow conn id board column position run) := by
  refine (readOnly_requireCard _).bind_atomic fun card =>
    (readOnly_getBoard _).bind_atomic fun _ => ?_
  refine (readOnly_requireColumn _).bind_atomic fun target =>
    (readOnly_refuse _ _).bind_atomic fun _ => ?_
  refine (readOnly_refuse _ _).bind_atomic fun _ => readOnly_get.bind_atomic fun db => ?_
  refine (readOnly_refuse _ _).bind_atomic fun _ => ?_
  refine @atomic_enqueues conn Int _ (fun _ => id) (fun runId => runId) fun db runId db' h => ?_
  obtain ⟨_, _, -, h⟩ := bind_ok.mp h
  obtain ⟨_, _, -, h⟩ := bind_ok.mp h
  obtain ⟨_, mid, -, h⟩ := bind_ok.mp h
  exact ⟨run, mid, h⟩

theorem createCardAndEnqueueUow_atomic (p : CardCreateParams) (run : EnqueueRun) :
    Atomic (createCardAndEnqueueUow conn p run) := by
  refine (readOnly_getBoard _).bind_atomic fun _ =>
    (readOnly_defaultColumnId _).bind_atomic fun default => ?_
  refine (readOnly_requireColumn _).bind_atomic fun column =>
    (readOnly_refuse _ _).bind_atomic fun _ => ?_
  refine (readOnly_refuse _ _).bind_atomic fun _ => readOnly_get.bind_atomic fun db => ?_
  refine @atomic_enqueues conn (Int × Int) _ Prod.fst Prod.snd fun db ids db' h => ?_
  obtain ⟨cardId, _, -, h⟩ := bind_ok.mp h
  have hlast : ∀ {mid : Db}, (do
      let runId ← enqueueRunTx conn cardId run
      pure (cardId, runId) : StoreM (Int × Int)) mid = .ok ids db' →
        enqueueRunTx conn ids.1 run mid = .ok ids.2 db' := by
    intro mid hlast
    obtain ⟨runId, _, hqueued, hids⟩ := bind_ok.mp hlast
    obtain ⟨rfl, rfl⟩ := pure_ok.mp hids
    exact hqueued
  rcases ite_ok.mp h with ⟨-, h⟩ | ⟨-, h⟩
  · obtain ⟨_, mid, -, h⟩ := bind_ok.mp h
    exact ⟨run, mid, hlast h⟩
  · exact ⟨run, _, hlast h⟩

/-- A transaction that keeps a card, read back afterwards. -/
theorem atomic_requireCard {tx : StoreM Unit} {id : Int}
    (hkeeps : KeepsTables (fun t => t.hasCard id) tx) (hcard : db.hasCard id = true) :
    AtomicAt (do
      transaction tx
      requireCard id : StoreM Card) db := by
  refine ((atomic_transaction _).atomicAt db).bind_succeeds fun u db' htx => ?_
  have hkept : db'.hasCard id = db.hasCard id := hkeeps.ok (transaction_ok.mp htx)
  obtain ⟨card, hcard⟩ := requireCard_of_hasCard (hkept.trans hcard)
  exact ⟨card, db', hcard⟩

theorem keeps_hasCard_place (id column : Int) (position : Option Int) :
    KeepsTables (fun t => t.hasCard id) (placeCardInColumnTx id column position) :=
  readOnly_get.respects.bind fun _ => keeps_positions (positionBlind_hasCard id) _

theorem moveCard_atomic (id column : Int) (position : Option Int) :
    Atomic (moveCard conn id column position) := by
  intro db
  refine (readOnly_requireCard _).bind_atomicAt fun card hcard =>
    (readOnly_requireColumn _).bind_atomicAt fun _ _ => ?_
  refine (readOnly_refuse _ _).bind_atomicAt fun _ _ =>
    atomic_requireCard ?_ (hasCard_of_requireCard hcard)
  refine keeps_hasCard_updateCards.bind fun _ =>
    (keeps_hasCard_place id column position).bind fun _ => ?_
  refine respects_ite (fun _ => ?_) fun _ => respects_pure ()
  exact keeps_positions_renumberColumnCardsTx (positionBlind_hasCard id) _

theorem transferCard_atomic (id board column : Int) (position : Option Int) :
    Atomic (transferCard conn id board column position) := by
  intro db
  refine ((atomic_transaction _).atomicAt db).bind_succeeds fun u db' htx => ?_
  obtain ⟨card, _, hcard, htx⟩ := bind_ok.mp (transaction_ok.mp htx)
  cases (readOnly_requireCard _).ok hcard
  have hkeeps : KeepsTables (fun t => t.hasCard id) (do
      let _ ← getBoard board
      let target ← requireColumn column
      refuse (target.boardId ≠ board) (.invalidState
        s!"column {column} belongs to board {target.boardId}, declared destination board is {board}")
      let _ ← updateCards (fun c => c.id == id) fun c =>
        { c with boardId := board, columnId := column, updatedAt := conn.now }
      placeCardInColumnTx id column position
      renumberColumnCardsTx card.columnId : StoreM Unit) := by
    refine (readOnly_getBoard _).respects.bind fun _ =>
      (readOnly_requireColumn _).respects.bind fun _ => ?_
    refine (readOnly_refuse _ _).respects.bind fun _ => keeps_hasCard_updateCards.bind fun _ => ?_
    refine (keeps_hasCard_place id column position).bind fun _ => ?_
    exact keeps_positions_renumberColumnCardsTx (positionBlind_hasCard id) _
  have hkept : db'.hasCard id = db.hasCard id := hkeeps.ok htx
  obtain ⟨found, hfound⟩ := requireCard_of_hasCard (hkept.trans (hasCard_of_requireCard hcard))
  exact ⟨found, db', hfound⟩

theorem succeeds_moveCard {id columnId : Int} {position : Option Int} {card : Card}
    {target : Column} (hcard : db.card? id = some card)
    (htarget : db.column? columnId = some target) (hboard : target.boardId = card.boardId) :
    Succeeds (moveCard conn id columnId position) db fun _ db' => db'.hasCard id = true := by
  have htx : Succeeds (do
      let _ ← updateCards (fun c => c.id == id) fun c =>
          { c with columnId := columnId, updatedAt := conn.now }
      placeCardInColumnTx id columnId position
      if card.columnId ≠ columnId then renumberColumnCardsTx card.columnId else pure () :
        StoreM Unit) db fun _ _ => True := by
    refine (succeeds_updateCards (by intro c hc _; exact @hasBoard_of_mem db c hc)
      (by intro c _ _; exact Option.isSome_iff_exists.mpr ⟨target, htarget⟩)
      (by intro c hc _; exact @Db.awaiting_iff db c hc)).bind fun _ moved _ _ => ?_
    refine Succeeds.bind (Q := fun _ _ => True) ?_ fun _ placed _ _ => ?_
    · exact succeeds_get_bind ((setCardPositions_total _).succeeds moved)
    · exact succeeds_ite (fun _ => succeeds_renumberColumnCardsTx _) fun _ => succeeds_pure trivial
  refine succeeds_bind_run (requireCard_run hcard)
    (succeeds_bind_run (requireColumn_run htarget) ?_)
  refine succeeds_bind_run (refuse_run (by simp [hboard]) _)
    (htx.transaction.bind fun _ db' hrun _ => ?_)
  have hkeeps : KeepsTables (fun t => t.hasCard id) (do
      let _ ← updateCards (fun c => c.id == id) fun c =>
          { c with columnId := columnId, updatedAt := conn.now }
      placeCardInColumnTx id columnId position
      if card.columnId ≠ columnId then renumberColumnCardsTx card.columnId else pure () :
        StoreM Unit) := by
    refine keeps_hasCard_updateCards.bind fun _ =>
      (keeps_hasCard_place id columnId position).bind fun _ => ?_
    refine respects_ite (fun _ => ?_) fun _ => respects_pure ()
    exact keeps_positions_renumberColumnCardsTx (positionBlind_hasCard id) _
  have hkept : db'.hasCard id = db.hasCard id := hkeeps.ok (transaction_ok.mp hrun)
  have hthere : db'.hasCard id = true := hkept.trans (Option.isSome_iff_exists.mpr ⟨card, hcard⟩)
  obtain ⟨found, hfound⟩ := requireCard_of_hasCard hthere
  exact ⟨found, db', hfound, hthere⟩

theorem createCard_atomic (p : CardCreateParams) : Atomic (createCard conn p) := by
  intro db
  rw [createCard_eq]
  refine (readOnly_getBoard _).bind_atomicAt fun _ _ =>
    (readOnly_chooseColumn p).bind_atomicAt fun columnId _ => ?_
  refine (readOnly_requireColumn _).bind_atomicAt fun column hcolumn => ?_
  refine (readOnly_refuse _ _).bind_atomicAt fun _ hboard =>
    readOnly_get.bind_atomicAt fun db₀ _ => ?_
  refine (insertCard_atomic.atomicAt db).bind_succeeds fun id inserted hinsert => ?_
  obtain ⟨htables, hid⟩ := insertCard_ok.mp hinsert
  have hcard : inserted.card? id = some (createdRow conn p columnId db₀ id) := by
    rw [hid]
    refine Table.find?_eq_some.mpr ⟨?_, rfl⟩
    rw [htables]
    exact Table.mem_insert_self fun _ => rfl
  have hcolumn' : inserted.column? columnId = some column := by
    rw [Db.column?, htables]
    exact (requireColumn_ok.mp hcolumn).1
  cases p.position with
  | none => exact ⟨_, _, requireCard_run hcard⟩
  | some pos =>
      obtain ⟨moved, placed, hmoved, hthere⟩ :=
        @succeeds_moveCard conn inserted id columnId (some pos) _ _ hcard hcolumn'
        (not_not.mp (refuse_ok.mp hboard).1)
      obtain ⟨card, hfound⟩ := requireCard_of_hasCard hthere
      exact ⟨card, placed, bind_ok.mpr ⟨moved, placed, hmoved, hfound⟩⟩

/-! ## Units of the daemon -/

theorem enqueueRun_atomic (cardId columnId : Int) (isRetry : Bool) :
    Atomic (enqueueRun cfg env cardId columnId isRetry) := by
  refine atomic_store ((readOnly_requireCard _).bind_atomic fun card =>
    (readOnly_refuse _ _).bind_atomic fun _ => ?_)
  refine (readOnly_checkNotArchived _ _).bind_atomic fun _ => readOnly_get.bind_atomic fun db => ?_
  refine (readOnly_refuse _ _).bind_atomic fun _ => (readOnly_refuse _ _).bind_atomic fun _ => ?_
  exact (readOnly_prepareEnqueueValues _ _ _).bind_atomic fun prepared => enqueueRunUow_atomic _

theorem createEntering_atomic (p : CardCreateParams) : Atomic (createEntering cfg env p) := by
  refine (readOnly_pendingCreateCard p).bind_atomic fun pending =>
    (readOnly_requireColumn _).bind_atomic fun column => ?_
  refine atomic_ite ?_ ?_
  · refine (readOnly_prepareEnqueueValues _ _ _).bind_atomic fun prepared => ?_
    exact (createCardAndEnqueueUow_atomic _ _).bind_total fun _ => total_pure _
  · exact (createCard_atomic _).bind_total fun _ => total_pure _

theorem moveEntering_atomic (p : CardMoveParams) (current : Card) (target : Column) :
    Atomic (moveEntering cfg env p current target) := by
  unfold moveEntering
  refine atomic_ite ?_ ?_
  · refine (readOnly_prepareEnqueueValues _ _ _).bind_atomic fun prepared => ?_
    cases crossBoard p current with
    | some board => exact (transferCardAndEnqueueUow_atomic _ _ _ _ _).bind_total fun _ =>
          total_pure _
    | none => exact (moveCardAndEnqueueUow_atomic _ _ _ _).bind_total fun _ => total_pure _
  · cases crossBoard p current with
    | some board => exact (transferCard_atomic _ _ _ _).bind_total fun _ => total_pure _
    | none => exact (moveCard_atomic _ _ _).bind_total fun _ => total_pure _

theorem moveWithin_atomic (p : CardMoveParams) : Atomic (moveWithin cfg env p) := by
  refine (readOnly_requireCard _).bind_atomic fun current =>
    (readOnly_moveTarget _ _).bind_atomic fun target => ?_
  refine atomic_ite ((moveCard_atomic _ _ _).bind_total fun _ => total_pure _) ?_
  exact (readOnly_checkTransfer _ _ _).bind_atomic fun _ => moveEntering_atomic p current target

theorem atomic_locked {α : Type} {x : DaemonM α} (h : Atomic x) : Atomic (locked x) :=
  h.zoom fun _ => rfl

theorem readOnly_locked {α : Type} {x : DaemonM α} (h : ReadOnly x) :
    ReadOnly (locked x) := fun s => by
  rw [locked, finalState_zoom, h]

theorem finalizeRunEmitting_atomic (runId : Int) (outcome : RunOutcome)
    (summary extraComment : Option String) (kill transition : Bool) (timeoutAt : Option Instant) :
    Atomic (finalizeRunEmitting cfg env runId outcome summary extraComment kill transition
      timeoutAt) := by
  refine (readOnly_locked (readOnly_store (readOnly_getRun _))).bind_atomic fun existing =>
    atomic_ite ?_ ?_
  · exact (readOnly_locked (readOnly_store (readOnly_requireCard _))).bind_atomic fun _ =>
      (total_pure _).atomic
  · refine (readOnly_locked readOnly_get).bind_atomic fun d => atomic_ite (total_pure _).atomic ?_
    refine (readOnly_locked (readOnly_store (readOnly_requireCard _))).bind_atomic fun card => ?_
    have hcommits : ∀ plan : TransitionPlan, Atomic (do
        let effects ← locked
            (store (finalizeRunUow env.conn (plan.finalize runId outcome summary extraComment)))
        locked (modify fun d => settleFinalized d runId card.id plan.nextHops kill)
        emit ([.watchRefresh] ++
          (if transition then reviewNotice d.db existing card outcome else []) ++
          emitRunEnded effects.card.id runId outcome ++ [.dispatchWake])
        pure (some (effects.finishedRun, effects.card)) : EmitM (Option (Run × Card))) := by
      intro plan
      refine (atomic_locked (atomic_store (finalizeRunUow_atomic _))).bind_total fun effects => ?_
      exact Total.bind (fun s => ⟨(), _, rfl⟩) fun _ => (total_modify _).bind fun _ => total_pure _
    cases transition with
    | true =>
        exact (readOnly_locked (readOnly_store (readOnly_planTransition _ _ _ _ _))).bind_atomic
          hcommits
    | false => exact hcommits _

theorem registerSpawnedRun_error {runId : Int} {handle : RuntimeHandle} {started : Instant}
    {deadline : Option Instant} {deadlineAtMs : Option Int} {d d' : DaemonState} {e : Error}
    (h : registerSpawnedRun env runId handle started deadline deadlineAtMs d = .error e d') :
    d' = d.kill handle := by
  unfold registerSpawnedRun at h
  rcases tryRegister_cases env runId handle started deadline deadlineAtMs d with
      ⟨e', he⟩ | he | ⟨run, t, he, -⟩
  · rw [he] at h
    cases h
    rfl
  · rw [he] at h
    cases h
  · rw [he] at h
    cases h

/-- What a rejected unit of work leaves: everything as it was, but for the process that a
registration was for. -/
def afterRejection (s : Emitting) : LifecycleUnit → Emitting
  | .register _ _ handle _ _ _ => { s with daemon := s.daemon.kill handle }
  | _ => s

theorem atomic_emitting {α : Type} {x : EmitM α} (h : Atomic x) {s t : Emitting} {e : Error}
    (hrun : (do let _ ← x : EmitM Unit) s = .error e t) : t = s :=
  h.bind_total (fun _ => total_pure ()) s e t hrun

theorem atomic_emits {α : Type} {x : DaemonM α} {es : α → List Emission} (h : Atomic x) :
    Atomic (do
      let a ← locked x
      emit (es a) : EmitM Unit) := (atomic_locked h).bind_total fun _ => total_modify _

theorem registerEmitting_error {run : Run} {card : Card} {handle : RuntimeHandle}
    {started : Instant}
    {deadline : Option Instant} {deadlineAtMs : Option Int} {s t : Emitting} {e : Error}
    (h : registerEmitting env run card handle started deadline deadlineAtMs s = .error e t) :
    t = { s with daemon := s.daemon.kill handle } := by
  rw [registerEmitting, run_bind] at h
  cases hlocked : locked (registerSpawnedRun env run.id handle started deadline deadlineAtMs) s with
  | ok registered u =>
      rw [hlocked] at h
      cases registered <;> cases h
  | error e' u =>
      rw [hlocked] at h
      cases h
      unfold locked zoom at hlocked
      cases hrun : registerSpawnedRun env run.id handle started deadline deadlineAtMs s.daemon with
      | ok registered d => simp [hrun] at hlocked
      | error e' d =>
          simp only [hrun, EStateM.Result.error.injEq] at hlocked
          rw [← hlocked.2, registerSpawnedRun_error hrun]

/-- A unit of work that is rejected, by its checks, by a fault or by its planning, changes and emits
nothing. A rejected registration kills the process it was for. -/
theorem unit_rejected (u : LifecycleUnit) {s t : Emitting} {e : Error}
    (h : u.perform cfg env s = .error e t) : t = afterRejection s u := by
  cases u with
  | enqueue cardId columnId =>
      refine atomic_emitting ?_ h
      refine (atomic_locked (enqueueRun_atomic cardId columnId true)).bind_total fun run => ?_
      exact (total_modify _).bind fun _ => total_pure run
  | register run card handle started deadline deadlineAtMs =>
      rw [LifecycleUnit.perform, run_bind] at h
      cases hreg : registerEmitting env run card handle started deadline deadlineAtMs s with
      | ok registered u =>
          rw [hreg] at h
          cases h
      | error e' u =>
          rw [hreg] at h
          cases h
          exact registerEmitting_error hreg
  | capture runId sessionId =>
      exact atomic_emitting
        (atomic_locked (atomic_store (promoteCapturedSessionUow_atomic runId sessionId))) h
  | finalize runId outcome summary extra kill transition timeoutAt =>
      exact atomic_emitting
        (finalizeRunEmitting_atomic runId outcome summary extra kill transition timeoutAt) h
  | cancel cardId =>
      refine atomic_emits (Atomic.bind_total ?_ fun effects => ?_) _ _ _ h
      · refine atomic_store
          (readOnly_get.bind_atomic fun db => (readOnly_okOr _ _).bind_atomic fun queued => ?_)
        exact finalizeRunUow_atomic _
      · exact (total_modify _).bind fun _ => total_pure _
  | failQueued runId reason => exact atomic_emits (atomic_store (finalizeRunUow_atomic _)) _ _ _ h
  | create p =>
      refine atomic_emitting ?_ h
      refine (readOnly_locked (readOnly_fromExcept _)).bind_atomic fun _ => ?_
      refine (atomic_locked (atomic_store (createEntering_atomic p))).bind_total fun entered => ?_
      exact Total.bind (fun s => ⟨(), _, rfl⟩) fun _ => (total_modify _).bind fun _ => total_pure _
  | move p =>
      refine atomic_emitting ?_ h
      refine (readOnly_locked readOnly_get).bind_atomic fun d => ?_
      refine (atomic_locked (atomic_store (moveWithin_atomic p))).bind_total fun moved => ?_
      exact Total.bind (fun s => ⟨(), _, rfl⟩) fun _ => (total_modify _).bind fun _ => total_pure _

/-- Promotions hit a fault. -/
def promotionFault : Env :=
  { permissiveEnv with
    conn := { now := "2026-01-01 00:00:00", lifecycleFaultHook := some fun point =>
      if point = .promoteAfterRunUpdate then .error (.invalidState "injected promotion fault")
        else .ok () } }

/-- The daemon with a queued run, about to register the process spawned for it. -/
def spawned : Emitting := { daemon := oneQueuedCard.daemon, emitted := [] }

def registration (claimed : Run × Card) : LifecycleUnit :=
  .register claimed.1 claimed.2 plainHandle 0 none none

def isError {ε σ α : Type} : EStateM.Result ε σ α → Bool
  | .ok _ _ => false
  | .error _ _ => true

theorem error_of_isError {ε σ α : Type} {r : EStateM.Result ε σ α} (h : isError r = true) :
    ∃ e t, r = .error e t := by
  cases r with
  | ok a t => cases h
  | error e t => exact ⟨e, t, rfl⟩

theorem unit_rejected_registration : ∃ claimed ∈ oneQueuedCard.daemon.db.queuedRunsWithCards, ∃ e t,
    (registration claimed).perform oneAtATime promotionFault spawned = .error e t ∧
      t = afterRejection spawned (registration claimed) := by
  have hfails : (oneQueuedCard.daemon.db.queuedRunsWithCards.any fun claimed =>
      isError ((registration claimed).perform oneAtATime promotionFault spawned)) = true := by
        decide +kernel
  obtain ⟨claimed, hclaimed, hfails⟩ := List.any_eq_true.mp hfails
  obtain ⟨e, t, hrun⟩ := error_of_isError hfails
  exact ⟨claimed, hclaimed, e, t, hrun, unit_rejected _ hrun⟩

/-- The process of a promotion that hits a fault is killed. -/
theorem rejected_registration_kills : ∃ (u : LifecycleUnit) (s t : Emitting) (e : Error),
    u.perform oneAtATime promotionFault s = .error e t ∧ t.daemon.kills ≠ s.daemon.kills := by
  have hkills : (oneQueuedCard.daemon.db.queuedRunsWithCards.any fun claimed =>
      isError ((registration claimed).perform oneAtATime promotionFault spawned) &&
        (finalState ((registration claimed).perform oneAtATime promotionFault
          spawned)).daemon.kills.length == 1) = true := by
    decide +kernel
  obtain ⟨claimed, -, hkills⟩ := List.any_eq_true.mp hkills
  obtain ⟨hfails, hkills⟩ := Bool.and_eq_true_iff.mp hkills
  obtain ⟨e, t, hrun⟩ := error_of_isError hfails
  refine ⟨registration claimed, spawned, t, e, hrun, fun hsame => ?_⟩
  have hnone : spawned.daemon.kills.length = 0 := by decide +kernel
  simp [hrun, hsame, hnone] at hkills

/-! ## The same units on the daemon alone -/

/-- The emitting computation does to the daemon what the other one does, with the same outcome. -/
def Mirrors {α : Type} (x : EmitM α) (y : DaemonM α) : Prop := ∀ s,
  (∃ a t, x s = .ok a t ∧ y s.daemon = .ok a t.daemon) ∨ ∃ e t, x s = .error e t ∧
    y s.daemon = .error e t.daemon

section Mirrors

variable {α β : Type}

theorem mirrors_pure (a : α) : Mirrors (pure a) (pure a) := fun s => .inl ⟨a, s, rfl, rfl⟩

theorem mirrors_locked (x : DaemonM α) : Mirrors (locked x) x := by
  intro s
  unfold locked zoom
  cases h : x s.daemon with
  | ok a d => exact .inl ⟨a, { s with daemon := d }, rfl, rfl⟩
  | error e d => exact .inr ⟨e, { s with daemon := d }, rfl, rfl⟩

theorem Mirrors.bind {x : EmitM α} {y : DaemonM α} {f : α → EmitM β} {g : α → DaemonM β}
    (h : Mirrors x y) (hf : ∀ a, Mirrors (f a) (g a)) : Mirrors (x >>= f) (y >>= g) := by
  intro s
  rw [run_bind, run_bind]
  rcases h s with ⟨a, t, hx, hy⟩ | ⟨e, t, hx, hy⟩
  · rw [hx, hy]
    exact hf a t
  · rw [hx, hy]
    exact .inr ⟨e, t, rfl, rfl⟩

/-- What follows the mirrored computation only passes its value on. -/
theorem Mirrors.followed {x : EmitM α} {y : DaemonM α} {f : α → EmitM α} (h : Mirrors x y)
    (hf : ∀ a, Mirrors (f a) (pure a)) : Mirrors (x >>= f) y := by
  intro s
  rw [run_bind]
  rcases h s with ⟨a, t, hx, hy⟩ | ⟨e, t, hx, hy⟩
  · rw [hx, hy]
    exact hf a t
  · rw [hx, hy]
    exact .inr ⟨e, t, rfl, rfl⟩

theorem mirrors_read {f : DaemonState → EmitM β} {y : DaemonM β} (h : ∀ d, Mirrors (f d) y) :
    Mirrors (locked get >>= f) y := fun s => h s.daemon s

theorem mirrors_ite {c : Prop} [Decidable c] {x x' : EmitM α} {y y' : DaemonM α} (h : Mirrors x y)
    (h' : Mirrors x' y') : Mirrors (if c then x else x') (if c then y else y') := by
  split
  · exact h
  · exact h'

/-- What is emitted does not touch the daemon. -/
theorem mirrors_emit {x : EmitM α} {y : DaemonM α} (es : List Emission) (h : Mirrors x y) :
    Mirrors (do
      emit es
      x) y := fun s => h { s with emitted := s.emitted ++ es }

end Mirrors

theorem mirrors_finalizeRun (runId : Int) (outcome : RunOutcome)
    (summary extraComment : Option String) (kill transition : Bool) (timeoutAt : Option Instant) :
    Mirrors (finalizeRunEmitting cfg env runId outcome summary extraComment kill
      transition timeoutAt)
      (finalizeRunInner cfg env runId outcome summary extraComment kill transition timeoutAt) := by
  refine (mirrors_locked _).bind fun existing => mirrors_ite ?_ ?_
  · exact (mirrors_locked _).bind fun card => mirrors_pure _
  · refine (mirrors_locked get).bind fun d => mirrors_ite (mirrors_pure _)
      ((mirrors_locked _).bind fun card => ?_)
    have hcommits : ∀ plan : TransitionPlan, Mirrors (do
        let effects ← locked
            (store (finalizeRunUow env.conn (plan.finalize runId outcome summary extraComment)))
        locked (modify fun d => settleFinalized d runId card.id plan.nextHops kill)
        emit ([.watchRefresh] ++
          (if transition then reviewNotice d.db existing card outcome else []) ++
          emitRunEnded effects.card.id runId outcome ++ [.dispatchWake])
        pure (some (effects.finishedRun, effects.card)) : EmitM (Option (Run × Card))) (do
        let effects ← store (finalizeRunUow env.conn
            (plan.finalize runId outcome summary extraComment))
        modify fun d => settleFinalized d runId card.id plan.nextHops kill
        pure (some (effects.finishedRun, effects.card)) : DaemonM (Option (Run × Card))) := by
      intro plan
      refine (mirrors_locked _).bind fun effects => (mirrors_locked _).bind fun _ => ?_
      exact mirrors_emit _ (mirrors_pure _)
    cases transition with
    | true => exact (mirrors_locked _).bind hcommits
    | false => exact hcommits _

/-- With what it emits or without, a unit of work does the same to the daemon. -/
theorem mirrors_perform (u : LifecycleUnit) : Mirrors (u.perform cfg env) (u.onDaemon cfg env) := by
  cases u with
  | enqueue cardId columnId =>
      refine Mirrors.bind (?_ : Mirrors _ (enqueueRun cfg env cardId columnId true)) fun _ =>
        mirrors_pure _
      exact (mirrors_locked _).followed fun run => mirrors_emit _ (mirrors_pure run)
  | register run card handle started deadline deadlineAtMs =>
      refine Mirrors.bind (?_ : Mirrors _
        (registerSpawnedRun env run.id handle started deadline deadlineAtMs))
        fun _ => mirrors_pure _
      refine (mirrors_locked _).followed fun registered => ?_
      cases registered with
      | true => exact mirrors_emit _ (mirrors_pure _)
      | false => exact mirrors_pure _
  | capture runId sessionId => exact (mirrors_locked _).bind fun _ => mirrors_pure _
  | finalize runId outcome summary extra kill transition timeoutAt =>
      exact (mirrors_finalizeRun runId outcome summary extra kill transition timeoutAt).bind
        fun _ => mirrors_pure _
  | cancel cardId =>
      exact (mirrors_locked _).bind fun effects => mirrors_emit _ (mirrors_pure ())
  | failQueued runId reason =>
      exact (mirrors_locked _).bind fun effects => mirrors_emit _ (mirrors_pure ())
  | create p =>
      refine Mirrors.bind (?_ : Mirrors _ (cardCreate cfg env p)) fun _ => mirrors_pure _
      refine (mirrors_locked _).bind fun _ => (mirrors_locked _).bind fun entered =>
        (mirrors_locked _).bind fun _ => ?_
      exact mirrors_emit _ (mirrors_pure _)
  | move p =>
      refine Mirrors.bind (?_ : Mirrors _ (cardMove cfg env p)) fun _ => mirrors_pure _
      refine mirrors_read fun d => (mirrors_locked _).bind fun moved =>
        (mirrors_locked _).bind fun _ => ?_
      exact mirrors_emit _ (mirrors_pure _)

end HerdrBoard.Lifecycle
