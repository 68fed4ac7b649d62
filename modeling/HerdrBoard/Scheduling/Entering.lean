import HerdrBoard.Lifecycle.Creating
import HerdrBoard.Scheduling.HopLimit

/-!
# Entering a column

The deciders say what a column does with a card that enters it. Creating, moving, transferring and
finalizing commit what they say. -/

open Lib HerdrBoard.Core HerdrBoard.Daemon HerdrBoard.Lifecycle

namespace HerdrBoard.Scheduling

variable {cfg : Config} {env : Env} {conn : Conn} {db db' : Db} {d d' : DaemonState}
    {cardId columnId : Int}

/-- A run of the card that was not there before. -/
structure NewRun (db db' : Db) (cardId : Int) (run : Run) : Prop where
  mem : run ∈ db'.runs
  card : run.cardId = cardId
  fresh : db.run? run.id = none

/-- What an entry committed: the card's column and status, and whether a run waits there for it. -/
structure Entered (db db' : Db) (cardId columnId : Int) (status : CardStatus) (enqueue : Bool) :
    Prop where
  card : ∃ card, db'.card? cardId = some card ∧ card.columnId = columnId ∧ card.status = status
  run : (∃ run, NewRun db db' cardId run) ↔ enqueue = true
  queued : ∀ run, NewRun db db' cardId run → run.isQueued = true ∧ run.columnId = columnId

/-! ## Where a card stands -/

/-- A card's column and status, and the runs. -/
def standing (cardId : Int) (t : Tables) : Option (Int × CardStatus) × Table Run :=
  ((t.cards.find? cardId).map fun c => (c.columnId, c.status), t.runs)

theorem standing_update {t : Tables} {f : Card → Card} {hkey} {card : Card}
    (hcard : t.cards.find? cardId = some card) :
    standing cardId { t with cards := t.cards.update (fun c => c.id == cardId) f hkey } =
      (some ((f card).columnId, (f card).status), t.runs) := by
  have hid : card.id = cardId := Table.key_of_find? hcard
  simp [standing, Table.find?_update, hcard, hid]

theorem positionBlind_standing (cardId : Int) : PositionBlind (standing cardId) := by
  intro t p i
  refine Prod.ext ?_ rfl
  simp only [standing, Table.find?_update, Option.map_map]
  refine Option.map_congr fun c _ => ?_
  simp only [Function.comp_apply]
  split <;> rfl

theorem keeps_standing_place (id column : Int) (position : Option Int) :
    KeepsTables (standing cardId) (placeCardInColumnTx id column position) :=
  readOnly_get.respects.bind fun _ => keeps_positions (positionBlind_standing cardId) _

theorem keeps_standing_renumber (column : Int) :
    KeepsTables (standing cardId) (renumberColumnCardsTx column) :=
  keeps_positions_renumberColumnCardsTx (positionBlind_standing cardId) column

variable {runs : Table Run}

theorem not_newRun_of_mem {run : Run} (hkeys : runs.keys = db.runs.keys) (hmem : run ∈ runs) :
    ¬NewRun db db' cardId run := by
  intro hnew
  have hkey : run.id ∈ db.runs.keys := hkeys ▸ Table.mem_keys.mpr ⟨run, hmem, rfl⟩
  have hfound : (db.runs.find? run.id).isSome := Table.find?_isSome_iff.mpr hkey
  have hnone : db.runs.find? run.id = none := hnew.fresh
  simp [hnone] at hfound

/-- A card that stands in the column without a new run. -/
theorem entered_of_standing {status : CardStatus} (hkeys : runs.keys = db.runs.keys)
    (h : standing cardId db'.toTables = (some (columnId, status), runs)) :
    Entered db db' cardId columnId status false := by
  obtain ⟨hcard, hruns⟩ := Prod.mk.inj h
  obtain ⟨card, hfind, hstands⟩ := Option.map_eq_some_iff.mp hcard
  obtain ⟨hcolumn, hstatus⟩ := Prod.mk.inj hstands
  have hnone : ∀ run, ¬NewRun db db' cardId run := fun run hnew =>
    not_newRun_of_mem hkeys (hruns ▸ hnew.mem : run ∈ runs) hnew
  exact ⟨⟨card, hfind, hcolumn, hstatus⟩, by simpa using hnone,
    fun run hnew => absurd hnew (hnone run)⟩

/-- A card that stands in the column with the run just inserted. -/
theorem entered_of_inserted {run : EnqueueRun} (hkeys : runs.keys = db.runs.keys)
    (hrun : run.columnId = columnId) (h : standing cardId db'.toTables =
      (some (columnId, .queued), runs.insert (queuedRun cardId run)
        (Life.key_queuedRun cardId run))) :
    Entered db db' cardId columnId .queued true := by
  obtain ⟨hcard, hruns⟩ := Prod.mk.inj h
  obtain ⟨card, hfind, hstands⟩ := Option.map_eq_some_iff.mp hcard
  obtain ⟨hcolumn, hstatus⟩ := Prod.mk.inj hstands
  have hfresh : db.run? runs.nextKey = none := by
    rw [Table.nextKey_of_keys hkeys]
    exact Table.find?_nextKey db.runs
  have hnew : NewRun db db' cardId (queuedRun cardId run runs.nextKey) :=
    ⟨hruns ▸ Table.mem_insert_self fun _ => rfl, rfl, hfresh⟩
  refine ⟨⟨card, hfind, hcolumn, hstatus⟩, by simpa using ⟨_, hnew⟩, fun other hother => ?_⟩
  have hmem : other ∈ runs.insert (queuedRun cardId run) (Life.key_queuedRun cardId run) :=
    hruns ▸ hother.mem
  rcases Table.mem_insert.mp hmem with hmem | rfl
  · exact absurd hother (not_newRun_of_mem hkeys hmem)
  · exact ⟨rfl, hrun⟩

/-! ## Moving -/

theorem standing_enqueueRunTx {run : EnqueueRun} {id : Int} {status : CardStatus}
    (hstands : standing cardId db.toTables = (some (columnId, status), runs))
    (h : enqueueRunTx conn cardId run db = .ok id db') :
    standing cardId db'.toTables =
      (some (columnId, .queued), runs.insert (queuedRun cardId run)
        (Life.key_queuedRun cardId run)) := by
  obtain ⟨hcard, rfl⟩ := Prod.mk.inj hstands
  obtain ⟨card, hfind, hstands⟩ := Option.map_eq_some_iff.mp hcard
  simp only [enqueueRunTx, bind_ok, insertRun_ok, updateCards_ok, refuse_ok, pure_ok] at h
  obtain ⟨_, inserted, ⟨hinserted, -⟩, _, _, hfault, _, updated, ⟨hupdated, -⟩, _, _, ⟨-, rfl⟩, -,
    rfl⟩ := h
  cases lifecycleFault_ok hfault
  have hthere : inserted.cards.find? cardId = some card := by rw [hinserted]; exact hfind
  rw [hupdated, standing_update hthere, hinserted, (Prod.mk.inj hstands).1]

/-- The statements that put a card into a column. -/
theorem standing_put {f : Card → Card} {hkey} {target : Int} {card : Card} {position : Option Int}
    {n : Nat} {u : Unit} {moved placed : Db} (hcard : db.card? cardId = some card)
    (hcolumn : (f card).columnId = target) (hstatus : (f card).status = card.status)
    (hmoved : updateCards (fun c => c.id == cardId) f hkey db = .ok n moved)
    (hplaced : placeCardInColumnTx cardId target position moved = .ok u placed) :
    standing cardId placed.toTables = (some (target, card.status), db.runs) := by
  have hfind : db.cards.find? cardId = some card := hcard
  have hkept : standing cardId placed.toTables = standing cardId moved.toTables :=
    (keeps_standing_place cardId target position).ok hplaced
  rw [hkept, (updateCards_ok.mp hmoved).1, standing_update hfind, hcolumn, hstatus]

theorem standing_moveCard {card moved : Card} {position : Option Int}
    (hcard : db.card? cardId = some card)
    (h : moveCard conn cardId columnId position db = .ok moved db') :
    standing cardId db'.toTables = (some (columnId, card.status), db.runs) := by
  simp only [moveCard, bind_ok, requireCard_ok, requireColumn_ok, refuse_ok, transaction_ok] at h
  obtain ⟨found, _, ⟨hfound, rfl⟩, _, _, ⟨-, rfl⟩, _, _, ⟨-, rfl⟩, _, renumbered,
    ⟨_, t₁, hmoved, _, t₂, hplaced, hrest⟩, -, rfl⟩ := h
  cases hcard.symm.trans hfound
  have hput := standing_put hcard rfl rfl hmoved hplaced
  rcases ite_ok.mp hrest with ⟨-, h⟩ | ⟨-, h⟩
  · exact ((keeps_standing_renumber _).ok h).trans hput
  · obtain ⟨-, rfl⟩ := pure_ok.mp h
    exact hput

theorem standing_transferCard {card moved : Card} {board : Int} {position : Option Int}
    (hcard : db.card? cardId = some card)
    (h : transferCard conn cardId board columnId position db = .ok moved db') :
    standing cardId db'.toTables = (some (columnId, card.status), db.runs) := by
  simp only [transferCard, bind_ok, requireCard_ok, getBoard_ok, requireColumn_ok, refuse_ok,
    transaction_ok] at h
  obtain ⟨_, _, ⟨found, _, ⟨hfound, rfl⟩, _, _, ⟨-, rfl⟩, _, _, ⟨-, rfl⟩, _, _, ⟨-, rfl⟩, _, t₁,
    hmoved, _, t₂, hplaced, hrenumbered⟩, -, rfl⟩ := h
  cases hcard.symm.trans hfound
  exact ((keeps_standing_renumber _).ok hrenumbered).trans
    (standing_put hcard rfl rfl hmoved hplaced)

theorem entered_moveCardAndEnqueueUow {run : EnqueueRun} {position : Option Int}
    {moved : Card × Run}
    (h : moveCardAndEnqueueUow conn cardId columnId position run db = .ok moved db') :
    Entered db db' cardId columnId .queued true := by
  simp only [moveCardAndEnqueueUow, bind_ok, requireCard_ok, requireColumn_ok, refuse_ok, get_ok,
    transaction_ok, getRun_ok, pure_ok, not_or, not_not] at h
  obtain ⟨card, _, ⟨hcard, rfl⟩, _, _, ⟨-, rfl⟩, _, _, ⟨-, rfl⟩, _, _, ⟨⟨-, hcolumn⟩, rfl⟩, _, _,
    ⟨rfl, rfl⟩, _, _, ⟨-, rfl⟩, _, _, ⟨_, t₁, hmoved, _, t₂, hplaced, hrest⟩, _, _, ⟨-, rfl⟩, _, _,
    ⟨-, rfl⟩, -, rfl⟩ := h
  have hput := standing_put hcard rfl rfl hmoved hplaced
  obtain ⟨t₃, hkept, hrun⟩ : ∃ t₃, standing cardId t₃.toTables = standing cardId t₂.toTables ∧
      enqueueRunTx conn cardId run t₃ = .ok _ _ := by
    by_cases hsame : card.columnId ≠ columnId
    · rw [if_pos hsame] at hrest
      obtain ⟨_, t₃, hrenumbered, hrun⟩ := bind_ok.mp hrest
      exact ⟨t₃, (keeps_standing_renumber _).ok hrenumbered, hrun⟩
    · rw [if_neg hsame] at hrest
      exact ⟨_, rfl, hrest⟩
  exact entered_of_inserted rfl hcolumn (standing_enqueueRunTx (hkept.trans hput) hrun)

theorem entered_transferCardAndEnqueueUow {run : EnqueueRun} {board : Int} {position : Option Int}
    {moved : Card × Run}
    (h : transferCardAndEnqueueUow conn cardId board columnId position run db = .ok moved db') :
    Entered db db' cardId columnId .queued true := by
  simp only [transferCardAndEnqueueUow, bind_ok, requireCard_ok, getBoard_ok, requireColumn_ok,
    refuse_ok, get_ok, transaction_ok, getRun_ok, pure_ok, not_or, not_not] at h
  obtain ⟨card, _, ⟨hcard, rfl⟩, _, _, ⟨-, rfl⟩, _, _, ⟨-, rfl⟩, _, _, ⟨-, rfl⟩, _, _, ⟨⟨-,
    hcolumn⟩, rfl⟩, _, _, ⟨rfl, rfl⟩, _, _, ⟨-, rfl⟩, _, _, ⟨_, t₁, hmoved, _, t₂, hplaced, _, t₃,
    hrenumbered, hrun⟩, _, _, ⟨-, rfl⟩, _, _, ⟨-, rfl⟩, -, rfl⟩ := h
  have hkept := ((keeps_standing_renumber _).ok hrenumbered).trans
    (standing_put hcard rfl rfl hmoved hplaced)
  exact entered_of_inserted rfl hcolumn (standing_enqueueRunTx hkept hrun)

/-- Where the decider does not enqueue, it keeps the status, except of a card that is not idle in a
manual column. -/
theorem decideEntry_cases {target : Column} {status : CardStatus}
    (h : target.trigger = .manual → status = .idle) :
    (decideEntry target status false).enqueue = true ∧
    (decideEntry target status false).newStatus = .queued ∨
      (decideEntry target status false).enqueue = false ∧
      (decideEntry target status false).newStatus = status := by
  unfold decideEntry
  cases htrigger : target.trigger with
  | auto => cases status <;> simp
  | manual => simp [h htrigger]

theorem cardMove_entered {p : CardMoveParams} {current moved : Card} {target : Column}
    (hcurrent : d.db.card? p.id = some current) (htarget : d.db.column? p.columnId = some target)
    (hleaves : p.columnId ≠ current.columnId)
    (hidle : target.trigger = .manual → current.status = .idle)
    (h : cardMove cfg env p d = .ok moved d') :
    Entered d.db d'.db p.id p.columnId (decideEntry target current.status false).newStatus
      (decideEntry target current.status false).enqueue := by
  unfold cardMove at h
  obtain ⟨entered, t, hstore, h⟩ := bind_ok.mp h
  obtain ⟨db', hmove, rfl⟩ := store_ok.mp hstore
  have hdb : d'.db = db' := by
    obtain ⟨_, t, hmodify, h⟩ := bind_ok.mp h
    obtain ⟨-, rfl⟩ := pure_ok.mp h
    obtain ⟨-, rfl⟩ := modify_ok.mp hmodify
    exact forgetHops_db entered _
  rw [hdb]
  unfold moveWithin at hmove
  obtain ⟨found, _, hfound, hmove⟩ := bind_ok.mp hmove
  obtain ⟨hfind, rfl⟩ := requireCard_ok.mp hfound
  cases hcurrent.symm.trans hfind
  obtain ⟨column, _, hcolumn, hmove⟩ := bind_ok.mp hmove
  cases (readOnly_moveTarget _ _).ok hcolumn
  cases htarget.symm.trans (moveTarget_ok hcolumn).column
  rw [if_neg hleaves] at hmove
  obtain ⟨_, _, hcheck, hmove⟩ := bind_ok.mp hmove
  cases (readOnly_checkTransfer _ _ _).ok hcheck
  unfold moveEntering at hmove
  rcases decideEntry_cases hidle with ⟨henqueue, hstatus⟩ | ⟨hstays, hstatus⟩
  · rw [if_pos henqueue] at hmove
    rw [henqueue, hstatus]
    obtain ⟨prepared, _, hprepared, hmove⟩ := bind_ok.mp hmove
    cases (readOnly_prepareEnqueueValues _ _ _).ok hprepared
    cases hcross : crossBoard p current with
    | some board =>
        simp only [hcross] at hmove
        obtain ⟨both, _, hboth, hmove⟩ := bind_ok.mp hmove
        obtain ⟨-, rfl⟩ := pure_ok.mp hmove
        exact entered_transferCardAndEnqueueUow hboth
    | none =>
        simp only [hcross] at hmove
        obtain ⟨both, _, hboth, hmove⟩ := bind_ok.mp hmove
        obtain ⟨-, rfl⟩ := pure_ok.mp hmove
        exact entered_moveCardAndEnqueueUow hboth
  · rw [if_neg (by simp [hstays])] at hmove
    rw [hstays, hstatus]
    cases hcross : crossBoard p current with
    | some board =>
        simp only [hcross] at hmove
        obtain ⟨card, _, hcard, hmove⟩ := bind_ok.mp hmove
        obtain ⟨-, rfl⟩ := pure_ok.mp hmove
        exact entered_of_standing rfl (standing_transferCard hcurrent hcard)
    | none =>
        simp only [hcross] at hmove
        obtain ⟨card, _, hcard, hmove⟩ := bind_ok.mp hmove
        obtain ⟨-, rfl⟩ := pure_ok.mp hmove
        exact entered_of_standing rfl (standing_moveCard hcurrent hcard)

/-! ## Creating -/

theorem standing_insertCard {row : Int → Card} {hkey} {id : Int}
    (h : insertCard row hkey db = .ok id db') :
    standing id db'.toTables = (some ((row id).columnId, (row id).status), db.runs) ∧
    db'.card? id = some (row id) := by
  obtain ⟨htab, rfl⟩ := insertCard_ok.mp h
  have hfind : db'.cards.find? db.cards.nextKey = some (row db.cards.nextKey) := by
    rw [htab, Table.find?_insert, if_pos rfl]
  refine ⟨?_, hfind⟩
  rw [standing, hfind, htab]
  rfl

/-- What follows the insertion of a card leaves it in its column, and reads it back. -/
def Places (place : Int → Int → StoreM Card) : Prop :=
  ∀ id inserted row card placed, inserted.card? id = some row →
    place row.columnId id inserted = .ok card placed →
    placed.card? id = some card ∧ standing id placed.toTables = standing id inserted.toTables

theorem places_repositioning (position : Option Int) : Places (repositioning conn position) := by
  intro id inserted row card placed hrow h
  cases position with
  | none =>
      obtain ⟨hfind, rfl⟩ := requireCard_ok.mp h
      exact ⟨hfind, rfl⟩
  | some position =>
      obtain ⟨moved, _, hmoved, h⟩ := bind_ok.mp h
      obtain ⟨hfind, rfl⟩ := requireCard_ok.mp h
      refine ⟨hfind, (standing_moveCard hrow hmoved).trans ?_⟩
      have hfind : inserted.cards.find? id = some row := hrow
      rw [standing, hfind]
      rfl

theorem createCard_entered {p : CardCreateParams} {card : Card} {default : Column}
    (hdefault : (db.listColumns (p.boardId.getD BOARD_ID)).head? = some default)
    (h : createCard conn p db = .ok card db') :
    db.card? card.id = none ∧ db'.card? card.id = some card ∧
      Entered db db' card.id (p.columnId.getD default.id) .idle false := by
  simp only [createCard_eq, inserting, bind_ok, getBoard_ok, chooseColumn_ok, requireColumn_ok,
    refuse_ok, get_ok] at h
  obtain ⟨_, _, ⟨-, rfl⟩, columnId, _, ⟨hcolumn, rfl⟩, column, _, ⟨-, rfl⟩, _, _, ⟨-, rfl⟩, _, _,
    ⟨rfl, rfl⟩, id, inserted, hinserted, hplaced⟩ := h
  have hcolumnId : p.columnId.getD default.id = columnId := by
    rw [Db.newCardColumn, hdefault] at hcolumn
    cases hnamed : p.columnId <;> simpa [hnamed] using hcolumn
  obtain ⟨hstands, hrow⟩ := standing_insertCard hinserted
  obtain ⟨hfind, hkept⟩ := places_repositioning p.position _ _ _ _ _ hrow hplaced
  have hid : card.id = id := Table.key_of_find? hfind
  have hfresh : db.cards.find? id = none := by
    rw [(insertCard_ok.mp hinserted).2]
    exact Table.find?_nextKey db.cards
  rw [hid, hcolumnId]
  exact ⟨hfresh, hfind, entered_of_standing rfl (hkept.trans hstands)⟩

theorem createCardAndEnqueueUow_entered {p : CardCreateParams} {run : EnqueueRun}
    {created : Card × Run} {default : Column}
    (hdefault : (db.listColumns (p.boardId.getD BOARD_ID)).head? = some default)
    (h : createCardAndEnqueueUow conn p run db = .ok created db') :
    db.card? created.1.id = none ∧ db'.card? created.1.id = some created.1 ∧
      Entered db db' created.1.id (p.columnId.getD default.id) .queued true := by
  simp only [createCardAndEnqueueUow, bind_ok, getBoard_ok, defaultColumnId_ok, requireColumn_ok,
    refuse_ok, get_ok, transaction_ok, requireCard_ok, getRun_ok, pure_ok, not_not] at h
  obtain ⟨board, _, ⟨-, rfl⟩, _, _, ⟨⟨column, hfirst, rfl⟩, rfl⟩, _, _, ⟨-, rfl⟩, _, _, ⟨-, rfl⟩, _,
    _, ⟨hrun, rfl⟩, _, _, ⟨rfl, rfl⟩, ids, _, ⟨id, inserted, hinserted, hrest⟩, card, _, ⟨hcard,
    rfl⟩, _, _, ⟨-, rfl⟩, rfl, rfl⟩ := h
  cases hdefault.symm.trans hfirst
  obtain ⟨hstands, -⟩ := standing_insertCard hinserted
  obtain ⟨placed, hkept, hids, hqueued⟩ :
      ∃ placed, standing id placed.toTables = standing id inserted.toTables ∧
      ids.1 = id ∧ enqueueRunTx conn id run placed = .ok ids.2 _ := by
    rcases ite_ok.mp hrest with ⟨-, h⟩ | ⟨-, h⟩
    · obtain ⟨_, placed, hplaced, h⟩ := bind_ok.mp h
      obtain ⟨runId, _, hqueued, h⟩ := bind_ok.mp h
      obtain ⟨rfl, rfl⟩ := pure_ok.mp h
      exact ⟨placed, (keeps_standing_place _ _ _).ok hplaced, rfl, hqueued⟩
    · obtain ⟨runId, _, hqueued, h⟩ := bind_ok.mp h
      obtain ⟨rfl, rfl⟩ := pure_ok.mp h
      exact ⟨inserted, rfl, rfl, hqueued⟩
  have hid : card.id = id := (Table.key_of_find? hcard).trans hids
  have hfresh : db.cards.find? id = none := by
    rw [(insertCard_ok.mp hinserted).2]
    exact Table.find?_nextKey db.cards
  rw [hid]
  exact ⟨hfresh, hids ▸ hcard,
    entered_of_inserted rfl hrun (standing_enqueueRunTx (hkept.trans hstands) hqueued)⟩

/-- What `card.create` committed of the card it answers with. -/
structure Created (db db' : Db) (card : Card) : Prop where
  fresh : db.card? card.id = none
  entered : ∃ column, db.column? card.columnId = some column ∧
    Entered db db' card.id card.columnId (decideEntry column .idle false).newStatus
      (decideEntry column .idle false).enqueue

theorem createEntering_created {p : CardCreateParams} {entered : Card × Bool}
    (h : createEntering cfg env p db = .ok entered db') : Created db db' entered.1 := by
  unfold createEntering at h
  obtain ⟨pending, _, hpending, h⟩ := bind_ok.mp h
  cases (readOnly_pendingCreateCard p).ok hpending
  obtain ⟨column, _, hcolumn, h⟩ := bind_ok.mp h
  cases (readOnly_requireColumn _).ok hcolumn
  obtain ⟨hidle, default, hdefault, hcolumnId⟩ := pendingCreateCard_ok hpending
  have hfind := (requireColumn_ok.mp hcolumn).1
  rw [hcolumnId] at hfind
  rw [hidle] at h
  -- the card that is read back stands in the column the decider looked at
  have hcreated : ∀ {card : Card} {status : CardStatus} {enqueue : Bool}, db.card? card.id = none ∧
      db'.card? card.id = some card ∧
      Entered db db' card.id (p.columnId.getD default.id) status enqueue →
      (decideEntry column .idle false).newStatus = status →
      (decideEntry column .idle false).enqueue = enqueue → Created db db' card := by
    rintro card _ _ ⟨hfresh, hcard, hentered⟩ rfl rfl
    obtain ⟨found, hfound, hstands, -⟩ := hentered.card
    cases hcard.symm.trans hfound
    rw [← hstands] at hfind hentered
    exact ⟨hfresh, column, hfind, hentered⟩
  have hcases := @decideEntry_cases column .idle fun _ => rfl
  rcases ite_ok.mp h with ⟨henqueue, h⟩ | ⟨hstays, h⟩
  · obtain ⟨prepared, _, hprepared, h⟩ := bind_ok.mp h
    cases (readOnly_prepareEnqueueValues _ _ _).ok hprepared
    obtain ⟨created, _, hboth, h⟩ := bind_ok.mp h
    obtain ⟨rfl, rfl⟩ := pure_ok.mp h
    have hstatus : (decideEntry column .idle false).newStatus = .queued := by
      rcases hcases with ⟨-, hstatus⟩ | ⟨hnone, -⟩
      · exact hstatus
      · exact nomatch henqueue.symm.trans hnone
    exact hcreated (createCardAndEnqueueUow_entered hdefault hboth) hstatus henqueue
  · obtain ⟨card, _, hcard, h⟩ := bind_ok.mp h
    obtain ⟨rfl, rfl⟩ := pure_ok.mp h
    have hstatus : (decideEntry column .idle false).newStatus = .idle := by
      rcases hcases with ⟨henqueue, -⟩ | ⟨-, hstatus⟩
      · exact absurd henqueue hstays
      · exact hstatus
    exact hcreated (createCard_entered hdefault hcard) hstatus (Bool.not_eq_true _ ▸ hstays)

theorem cardCreate_created {p : CardCreateParams} {card : Card}
    (h : cardCreate cfg env p d = .ok card d') : Created d.db d'.db card := by
  unfold cardCreate at h
  obtain ⟨_, _, hvalid, h⟩ := bind_ok.mp h
  cases (readOnly_fromExcept _).ok hvalid
  obtain ⟨entered, t, hstore, h⟩ := bind_ok.mp h
  obtain ⟨db', henter, rfl⟩ := store_ok.mp hstore
  obtain ⟨_, t, hmodify, h⟩ := bind_ok.mp h
  obtain ⟨rfl, rfl⟩ := pure_ok.mp h
  obtain ⟨-, rfl⟩ := modify_ok.mp hmodify
  rw [forgetHops_db]
  exact createEntering_created henter

/-! ## Finalizing -/

/-- Ending a run, with its comments and its transition, leaves the card in the target column in the
final status. -/
theorem finalizeRunUow_entered {p : FinalizeRun} {effects : FinalizeEffects} {run : Run}
    (htarget : p.targetColumnId = some columnId)
    (hnext : ∀ next, p.next = some next → next.columnId = columnId)
    (hrun : db.run? p.runId = some run) (h : finalizeRunUow conn p db = .ok effects db') :
    Entered db db' run.cardId columnId (if p.next.isSome then .queued else p.finalStatus)
      p.next.isSome := by
  obtain ⟨ids, htx⟩ := finalizeRunUow_ok h
  simp only [finalizeRunTx, bind_ok, get_ok, okOr_ok, updateRuns_ok, updateCards_ok, pure_ok,
    htarget] at htx
  obtain ⟨_, _, ⟨rfl, rfl⟩, found, _, ⟨hfound, rfl⟩, _, _, hcheck, _, mid₁, hended, _, _, hfault, _,
    mid₂, hcomments, _, mid₃, hmoved, _, mid₄, ⟨hstatus, -⟩, nextId, mid₅, hinserted, -, rfl⟩ := htx
  obtain ⟨hfind, -⟩ := Option.filter_eq_some_iff.mp hfound
  cases hrun.symm.trans hfind
  have hchecked := (readOnly_checkNext _ _).ok hcheck
  cases lifecycleFault_ok hfault
  have hruns : mid₃.runs = mid₁.runs :=
    ((keeps_applyTransition (fun _ _ _ _ _ => rfl : PlaceBlind Tables.runs) run.cardId
      (some columnId)).ok hmoved).trans
      ((keeps_insertComments (fun _ _ _ => rfl : CommentBlind Tables.runs) conn run.cardId
        p.comments).ok hcomments)
  have hkeys : mid₃.runs.keys = db.runs.keys := by
    rw [hruns, hended, Table.keys_update, hchecked]
  obtain ⟨card, hcard, hcolumn⟩ := Option.map_eq_some_iff.mp (columnOf_applyTransition hmoved)
  have hstands : standing run.cardId mid₄.toTables =
      (some (columnId, p.finalStatus), mid₃.runs) := by
    rw [hstatus, standing_update hcard, ← hcolumn]
  cases hnone : p.next with
  | none =>
      rw [hnone] at hinserted
      obtain ⟨-, rfl⟩ := pure_ok.mp hinserted
      exact entered_of_standing hkeys hstands
  | some next =>
      rw [hnone] at hinserted
      simp only [insertNext, bind_ok, insertRun_ok, updateCards_ok, pure_ok] at hinserted
      obtain ⟨_, mid₆, ⟨hrow, -⟩, _, _, ⟨hqueued, -⟩, -, rfl⟩ := hinserted
      have howner : next.cardId = run.cardId := checkNext_cardId hcheck next hnone
      have hthere : mid₆.cards.find? run.cardId = mid₄.cards.find? run.cardId := by rw [hrow]
      obtain ⟨hcards₄, hruns₄⟩ := Prod.mk.inj hstands
      obtain ⟨card', hcard', hcolumn'⟩ := Option.map_eq_some_iff.mp hcards₄
      refine entered_of_inserted hkeys (hnext next hnone) ?_
      rw [hqueued, standing_update (hthere.trans hcard'), (Prod.mk.inj hcolumn').1, hrow, ← hruns₄]
      simp only [howner]

variable {runId : Int} {outcome : RunOutcome} {summary extraComment : Option String} {kill : Bool}
  {timeoutAt : Option Instant} {run : Run} {card : Card}

/-- A finalization of an open run that answers carried out the transition it planned. -/
theorem finalizeRunInner_ok {finished : Run × Card} (hrun : d.db.run? runId = some run)
    (hopen : run.isOpen = true) (hcard : d.db.card? run.cardId = some card)
    (h : finalizeRunInner cfg env runId outcome summary extraComment kill true timeoutAt d =
      .ok (some finished) d') :
    ∃ elapsed plan effects, planTransition cfg env ((d.sched.chainHops.lookup card.id).getD 0) run
        card outcome elapsed d.db = .ok plan d.db ∧
      finalizeRunUow env.conn (plan.finalize runId outcome summary extraComment) d.db =
        .ok effects d'.db := by
  cases hdue : timeoutAt.any (timeoutStale d run) with
  | true =>
      rw [finalizeRunInner_none hrun hopen hdue] at h
      cases h
  | false =>
      rw [finalizeRunInner_due hrun hopen hdue hcard] at h
      simp only [↓reduceIte] at h
      obtain ⟨plan, _, hplan, h⟩ := bind_ok.mp h
      obtain ⟨_, hplanned, rfl⟩ := store_ok.mp hplan
      cases (readOnly_planTransition _ _ _ _ _).ok hplanned
      obtain ⟨effects, _, heffects, h⟩ := bind_ok.mp h
      obtain ⟨db', huow, rfl⟩ := store_ok.mp heffects
      obtain ⟨_, _, hmodify, h⟩ := bind_ok.mp h
      obtain ⟨-, rfl⟩ := pure_ok.mp h
      obtain ⟨-, rfl⟩ := modify_ok.mp hmodify
      exact ⟨_, plan, effects, hplanned, huow⟩

theorem entered_plain {comments : List String} {status : CardStatus} {effects : FinalizeEffects}
    (hrun : db.run? runId = some run)
    (h : finalizeRunUow conn
      ((TransitionPlan.plain comments (some columnId) status).finalize runId outcome summary
      extraComment) db = .ok effects db') : Entered db db' run.cardId columnId status false :=
  finalizeRunUow_entered rfl (fun _ hnext => by cases hnext) hrun h

/-- Whether the guards of an auto-hop refuse it: something is archived, or the card has
hopped too often. -/
def hopRefused (d : DaemonState) (card : Card) : Bool :=
  autoHopSuppressed d.db card ||
    decide (MAX_AUTO_HOPS < nextHop ((d.sched.chainHops.lookup card.id).getD 0))

theorem finalize_entered {finished : Run × Card} {current : Column} {elapsed : Option Int}
    {targetId : Int} (hrun : d.db.run? runId = some run) (hopen : run.isOpen = true)
    (hcard : d.db.card? run.cardId = some card)
    (hcurrent : d.db.column? run.columnId = some current)
    (htarget : (decideTransition current (d.db.listColumns card.boardId) outcome
      elapsed).targetColumnId = some targetId)
    (h : finalizeRunInner cfg env runId outcome summary extraComment kill true timeoutAt d =
      .ok (some finished) d') :
    let decision := decideTransition current (d.db.listColumns card.boardId) outcome elapsed
    let stopped := decision.enqueue && hopRefused d card
    Entered d.db d'.db card.id targetId (if stopped then .failed else decision.newStatus)
      (decision.enqueue && !stopped) := by
  obtain ⟨_, plan, effects, hplan, huow⟩ := finalizeRunInner_ok hrun hopen hcard h
  obtain ⟨current', hcurrent', hcase⟩ := planTransition_cases hplan
  cases hcurrent.symm.trans hcurrent'
  have hid : card.id = run.cardId := Table.key_of_find? hcard
  unfold decideTransition at htarget ⊢
  cases hcase with
  | stay comments hnone => simp [hnone] at htarget
  | manual comments target hleads hmanual =>
      simp only [hleads, Option.some.injEq] at htarget ⊢
      simpa [hmanual, hid, htarget] using entered_plain hrun huow
  | suppressed comments target hleads hauto hsuppressed =>
      simp only [hleads, Option.some.injEq] at htarget ⊢
      have hrefused : hopRefused d card = true := by simp [hopRefused, hsuppressed]
      simpa [hauto, hrefused, hid, htarget] using entered_plain hrun huow
  | stopped comments target hleads hauto hlimit =>
      simp only [hleads, Option.some.injEq] at htarget ⊢
      have hrefused : hopRefused d card = true := by simp [hopRefused, not_le.mp hlimit]
      simpa [hauto, hrefused, hid, htarget] using entered_plain hrun huow
  | hop comments target prepared hleads hauto hlimit hprepared hactive =>
      simp only [hleads, Option.some.injEq] at htarget ⊢
      have hrefused : hopRefused d card = false := by simp [hopRefused, hactive, hlimit]
      have hnext : ∀ next, some prepared.borrowed = some next → next.columnId = target.id := by
        rintro _ ⟨⟩
        exact (prepared_columnId hprepared).1
      have hentered := finalizeRunUow_entered rfl hnext hrun huow
      simpa [hauto, hrefused, hid, htarget, TransitionPlan.finalize] using hentered

/-! ## Every entry -/

/-- Creating, moving and transferring a card commit what `decideEntry` says of the column, and a
finalization commits what `decideTransition` says, unless the guards of the auto-hop refuse the run:
then the card is failed in the target column. Of a move into a manual column this says something
when the card was idle. -/
theorem entry_commits_decision (cfg : Config) (env : Env) (d d' : DaemonState) :
    (∀ p card, cardCreate cfg env p d = .ok card d' → Created d.db d'.db card) ∧
    (∀ (p : CardMoveParams) (current moved : Card) (target : Column),
      d.db.card? p.id = some current →
      d.db.column? p.columnId = some target → p.columnId ≠ current.columnId →
      (target.trigger = .manual → current.status = .idle) → cardMove cfg env p d = .ok moved d' →
      Entered d.db d'.db p.id p.columnId (decideEntry target current.status false).newStatus
        (decideEntry target current.status false).enqueue) ∧
    ∀ runId outcome summary extraComment kill timeoutAt run card current elapsed targetId finished,
      d.db.run? runId = some run → run.isOpen = true → d.db.card? run.cardId = some card →
      d.db.column? run.columnId = some current →
      (decideTransition current (d.db.listColumns card.boardId) outcome elapsed).targetColumnId =
        some targetId →
      finalizeRunInner cfg env runId outcome summary extraComment kill true timeoutAt d =
        .ok (some finished) d' →
      let decision := decideTransition current (d.db.listColumns card.boardId) outcome elapsed
      let stopped := decision.enqueue && hopRefused d card
      Entered d.db d'.db card.id targetId (if stopped then .failed else decision.newStatus)
        (decision.enqueue && !stopped) :=
  ⟨fun _ _ h => cardCreate_created h, fun _ _ _ _ hcurrent htarget hleaves hidle h =>
    cardMove_entered hcurrent htarget hleaves hidle h,
    fun _ _ _ _ _ _ _ _ _ _ _ _ hrun hopen hcard hcurrent htarget h =>
      finalize_entered hrun hopen hcard hcurrent htarget h⟩

/-- An idle card moved into an auto column. -/
theorem entry_commits_decision_auto :
    ∃ d d' moved, cardMove fakeHarness permissiveEnv { id := 1, columnId := 2 } d = .ok moved d' ∧
    Entered d.db d'.db 1 2 .queued true := by
  let d := (Chained.start.run fakeHarness (loopBoard.take 3)).world.daemon
  have hmoves : succeeded (cardMove fakeHarness permissiveEnv { id := 1, columnId := 2 } d) =
      true := by decide +kernel
  obtain ⟨moved, d', hmove⟩ := ok_of_succeeded hmoves
  have hcard : (d.db.card? 1).map (fun c => (c.columnId, c.status)) = some (1, .idle) := by
    decide +kernel
  have hcolumn : (d.db.column? 2).map Column.trigger = some .auto := by decide +kernel
  obtain ⟨current, hcurrent, hstands⟩ := Option.map_eq_some_iff.mp hcard
  obtain ⟨target, htarget, hauto⟩ := Option.map_eq_some_iff.mp hcolumn
  obtain ⟨hone, hidle⟩ := Prod.mk.inj hstands
  have hentered := (entry_commits_decision fakeHarness permissiveEnv d d').2.1
    { id := 1, columnId := 2 } current moved target
    hcurrent htarget (by rw [hone]; decide) (fun _ => hidle) hmove
  refine ⟨d, d', moved, hmove, ?_⟩
  simpa [decideEntry, hauto, hidle] using hentered

/-- A card in the first of two auto columns that lead to each other. -/
def pingPong : List Label :=
  [ .request permissiveEnv (.columnCreate { name := "Ping", trigger := some .auto }),
    .request permissiveEnv (.columnCreate { name := "Pong", trigger := some .auto }),
    .request permissiveEnv (.columnUpdate { id := 2, onSuccessColumnId := .set 3 }),
    .request permissiveEnv (.columnUpdate { id := 3, onSuccessColumnId := .set 2 }),
    .request permissiveEnv
      (.cardCreate { title := "Task", harness := some "fake", spaceRef := some "w1" }),
    .request permissiveEnv (.cardMove { id := 1, columnId := 2 }) ]

/-- The card has been hopped eight times, and its ninth run waits. -/
def pingPongs : Chained :=
  Chained.start.run fakeHarness (pingPong ++ [1, 2, 3, 4, 5, 6, 7, 8].map runDone)

/-- At the limit the card enters the other column failed, and without the run the
decider asks for. -/
theorem hop_limit_overrides_decision :
    ¬∀ (cfg : Config) (env : Env) (s : Chained)
      (d' : DaemonState) runId outcome summary extraComment kill timeoutAt run card
        current elapsed targetId finished, (chained cfg).Reachable s →
        s.world.daemon.db.run? runId = some run →
      run.isOpen = true → s.world.daemon.db.card? run.cardId = some card →
      s.world.daemon.db.column? run.columnId = some current → card.columnId ≠ targetId →
      (decideTransition current (s.world.daemon.db.listColumns card.boardId) outcome
        elapsed).targetColumnId = some targetId →
      finalizeRunInner cfg env runId outcome summary extraComment kill true timeoutAt
        s.world.daemon = .ok (some finished) d' →
      let decision := decideTransition current (s.world.daemon.db.listColumns card.boardId)
        outcome elapsed
      Entered s.world.daemon.db d'.db card.id targetId decision.newStatus decision.enqueue := by
  intro hclaim
  obtain ⟨run, target, hid, htarget, hleads⟩ :=
    leadsOn_of_leadsOn (show leadsOn pingPongs.world.daemon.db 9 .ok 3 = true by decide +kernel)
  obtain ⟨card, current, hcard, hcurrent, htransition⟩ := hleads.leads
  have hrun : pingPongs.world.daemon.db.run? 9 = some run := hid ▸ Table.find?_key hleads.mem
  have howner : (pingPongs.world.daemon.db.run? 9).map Run.cardId = some 1 := by decide +kernel
  rw [hrun, Option.map_some, Option.some.injEq] at howner
  have hat : (pingPongs.world.daemon.db.card? 1).map
      (fun c => (c.columnId, hopRefused pingPongs.world.daemon c)) =
      some (2, true) := by decide +kernel
  rw [← howner, hcard, Option.map_some, Option.some.injEq] at hat
  obtain ⟨hcolumn, hrefused⟩ := Prod.mk.inj hat
  have hends : succeeded (finalizeRun fakeHarness permissiveEnv 9 .ok none none false true
      pingPongs.world.daemon) = true := by
    decide +kernel
  obtain ⟨finished, d', hfinal⟩ := ok_of_succeeded hends
  obtain ⟨answer, t, hinner, hsome⟩ := bind_ok.mp hfinal
  obtain ⟨rfl, rfl⟩ := okOr_ok.mp hsome
  have hdecision : (decideTransition current (pingPongs.world.daemon.db.listColumns card.boardId)
      .ok none).targetColumnId = some target.id := by simp [decideTransition, htransition]
  have henqueue : (decideTransition current (pingPongs.world.daemon.db.listColumns card.boardId) .ok
      none).enqueue = true := by
    simp [decideTransition, htransition, hleads.auto]
  have hdecided := hclaim _ _ pingPongs t 9 .ok none none false none run card current none
    target.id finished
    (reachable_chain (.init rfl) _) hrun hleads.isOpen hcard hcurrent
      (by rw [hcolumn, htarget]; decide) hdecision hinner
  have hstopped := finalize_entered hrun hleads.isOpen hcard hcurrent hdecision hinner
  simp only [henqueue, hrefused, Bool.and_self, Bool.not_true, Bool.and_false] at hstopped hdecided
  exact nomatch hstopped.run.mp (hdecided.run.mpr rfl)

end HerdrBoard.Scheduling
