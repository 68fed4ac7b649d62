import HerdrBoard.Editing.Integrity

/-!
# Open runs on the boards of their cards

While a run is open, its column is on the board of its card.
-/

open Lib HerdrBoard.Core HerdrBoard.Daemon HerdrBoard.Lifecycle

namespace HerdrBoard.Editing

variable {conn : Conn} {db db' : Db} {t t' : Tables} {id column board cardId columnId : Int}

/-- The board of each card, and of each column. -/
def Tables.land (t : Tables) : (Int → Option Int) × List (Int × Int) :=
  (fun id => (t.cards.find? id).map Card.boardId, t.columns.rows.map fun l => (l.id, l.boardId))

/-- The column, if it is there, is on the card's board. -/
def Tables.Seats (t : Tables) (cardId columnId : Int) : Prop :=
  ∀ l ∈ t.columns, l.id = columnId → (Tables.land t).1 cardId = some l.boardId

theorem Tables.Seats.of_land (h : Tables.Seats t cardId columnId)
    (hland : Tables.land t' = Tables.land t) : Tables.Seats t' cardId columnId := by
  intro l hl hid
  obtain ⟨l₀, hl₀, hsame⟩ := exists_of_map_eq (congrArg Prod.snd hland) hl
  simp only [Prod.mk.injEq] at hsame
  rw [hland, hsame.2]
  exact h l₀ hl₀ (hsame.1.symm.trans hid)

theorem seats_of_column? {l : Column} (hcolumn : db.column? columnId = some l)
    (hboard : (db.card? cardId).map Card.boardId = some l.boardId) :
    Tables.Seats db.toTables cardId columnId := by
  intro m hm hid
  rw [boardId_of_column? hcolumn hm hid.symm]
  exact hboard

theorem seats_of_boardMatches (h : db.boardMatches columnId cardId = true) :
    Tables.Seats db.toTables cardId columnId := by
  obtain ⟨l, hl, hboard⟩ := boardMatches_iff.mp h
  exact seats_of_column? hl hboard

/-- Every open run stands on its card's board. -/
def Tables.Seated (t : Tables) : Prop :=
  ∀ r ∈ t.runs, r.isOpen = true → Tables.Seats t r.cardId r.columnId

def StaysSeated (db db' : Db) : Prop := Tables.Seated db.toTables → Tables.Seated db'.toTables

instance : Std.Refl StaysSeated := ⟨fun _ h => h⟩

instance : IsTrans Db StaysSeated := ⟨fun _ _ _ h h' => h' ∘ h⟩

/-! ## What `Seated` looks at -/

def Tables.seating (t : Tables) : List (Int × Int × Bool) × (Int → Option Int) × List (Int × Int) :=
  (t.runs.rows.map fun r => (r.cardId, r.columnId, r.isOpen), Tables.land t)

theorem Tables.Seated.of_seating (h : Tables.Seated t)
    (hseating : Tables.seating t' = Tables.seating t) : Tables.Seated t' := by
  intro r hr hopen
  obtain ⟨r₀, hr₀, hsame⟩ := exists_of_map_eq (congrArg Prod.fst hseating) hr
  simp only [Prod.mk.injEq] at hsame
  rw [hsame.1, hsame.2.1]
  exact (h r₀ hr₀ (hsame.2.2 ▸ hopen)).of_land (congrArg Prod.snd hseating)

theorem staysSeated_of_keeps {α : Type} {x : StoreM α} (hx : KeepsTables Tables.seating x) :
    Respects StaysSeated x :=
  fun db h => h.of_seating (hx db)

theorem land_of_seating (h : Tables.seating t' = Tables.seating t) :
    Tables.land t' = Tables.land t := congrArg Prod.snd h

theorem land_updateCards {p : Card → Bool} {f : Card → Card} {hkey}
    (hf : ∀ c, (f c).boardId = c.boardId) :
    Tables.land { t with cards := t.cards.update p f hkey } = Tables.land t := by
  have hgrounds : Tables.grounds { t with cards := t.cards.update p f hkey } = t.grounds :=
    grounds_updateCards hf
  exact Prod.ext (congrArg (fun g => g.2.2.2) hgrounds) rfl

theorem seating_updateCards {p : Card → Bool} {f : Card → Card} {hkey}
    (hf : ∀ c, (f c).boardId = c.boardId) :
    Tables.seating { t with cards := t.cards.update p f hkey } = Tables.seating t :=
  Prod.ext rfl (land_updateCards hf)

theorem commentBlind_seating : CommentBlind Tables.seating := fun _ _ _ => rfl

theorem siteBlind_seating : SiteBlind Tables.seating := ⟨fun _ _ _ => rfl, fun _ _ _ _ _ => rfl⟩

theorem placeBlind_seating : PlaceBlind Tables.seating := by
  intro t p f hkey hf
  refine seating_updateCards fun c => ?_
  obtain ⟨_, _, _, hc⟩ := hf c
  rw [hc]

theorem standingBlind_seating : StandingBlind Tables.seating where
  cards _ _ _ _ hf := seating_updateCards fun c => (hf c).1
  runs t p f hkey hf := by
    have hruns : (t.runs.update p f hkey).rows.map
        (fun r : Run => (r.cardId, r.columnId, r.isOpen)) =
        t.runs.rows.map fun r => (r.cardId, r.columnId, r.isOpen) := by
      refine Table.map_rows_update fun r _ => ?_
      rw [(hf r).1, (hf r).2.1, (hf r).2.2]
    exact Prod.ext hruns rfl

theorem keeps_seating_setColumnPositions (ids : List Int) :
    KeepsTables Tables.seating (setColumnPositions ids) := by
  refine (setColumnPositions_total ids).atomic.respects fun db _ db' hok => ?_
  have htables := setColumnPositions_ok.mp hok
  have hunplaced : (db.columns.renumber ids).map unplaced (fun _ => rfl) =
      db.columns.map unplaced :=
    Table.map_renumber (fun _ _ => rfl) ids
  have hrows := congrArg
    (fun columns : Table Column => columns.rows.map fun l => (l.id, l.boardId)) hunplaced
  simp only [Table.map, List.map_map] at hrows
  show Tables.seating db'.toTables = Tables.seating db.toTables
  rw [htables]
  exact Prod.ext rfl (Prod.ext rfl hrows)

theorem keeps_seating_updateColumns {p : Column → Bool} {f : Column → Column} {hkey}
    (hf : ∀ l, (f l).boardId = l.boardId) :
    KeepsTables Tables.seating (updateColumns p f hkey) := by
  refine keeps_exec fun t => ?_
  have hcolumns : (t.columns.update p f hkey).rows.map (fun l : Column => (l.id, l.boardId)) =
      t.columns.rows.map fun l => (l.id, l.boardId) := by
    refine Table.map_rows_update fun l _ => ?_
    have hid : (f l).id = l.id := hkey l
    rw [hid, hf]
  exact Prod.ext rfl (Prod.ext rfl hcolumns)

theorem keeps_seating_reorderColumn (id position : Int) :
    KeepsTables Tables.seating (reorderColumn id position) :=
  (readOnly_requireColumn id).respects.bind fun _ => Respects.bind
    (Respects.transaction (readOnly_get.respects.bind fun _ => keeps_seating_setColumnPositions _))
    fun _ => readOnly_get.respects.bind fun _ => respects_pure _

/-! ## Statements that add and remove rows -/

theorem staysSeated_insertColumn {row : Int → Column} {hkey} {newId : Int}
    (hrun : insertColumn row hkey db = .ok newId db') : StaysSeated db db' := by
  intro h
  rw [(insertColumn_ok.mp hrun).1]
  intro r hr hopen l hl hid
  have hr : r ∈ db.runs := hr
  have hl : l ∈ db.columns.insert row hkey := hl
  rcases Table.mem_insert.mp hl with hl | rfl
  · exact h r hr hopen l hl hid
  · obtain ⟨m, hm, hmid⟩ := db.run_column hr
    have hfresh : m.id < db.columns.nextKey := Table.lt_nextKey hm
    have hnew : (row db.columns.nextKey).id = db.columns.nextKey := hkey _
    omega

theorem staysSeated_insertCard {row : Int → Card} {hkey} {newId : Int}
    (hrun : insertCard row hkey db = .ok newId db') : StaysSeated db db' := by
  intro h
  rw [(insertCard_ok.mp hrun).1]
  intro r hr hopen l hl hid
  have hr : r ∈ db.runs := hr
  obtain ⟨c, hc, hcard⟩ := db.run_card hr
  have hfresh : c.id < db.cards.nextKey := Table.lt_nextKey hc
  have hold : (db.cards.insert row hkey).find? r.cardId = db.cards.find? r.cardId := by
    rw [Table.find?_insert, if_neg (by omega)]
  exact (congrArg (Option.map Card.boardId) hold).trans (h r hr hopen l hl hid)

theorem insertRun_seated {row : Int → Run} {hkey} {newId : Int}
    (hrun : insertRun row hkey db = .ok newId db')
    (hrow : Tables.Seats db.toTables (row db.runs.nextKey).cardId (row db.runs.nextKey).columnId) :
    StaysSeated db db' := by
  intro h
  rw [(insertRun_ok.mp hrun).1]
  intro r hr hopen
  have hr : r ∈ db.runs.insert row hkey := hr
  rcases Table.mem_insert.mp hr with hr | rfl
  · exact h r hr hopen
  · exact hrow

theorem enqueueRunTx_seated {p : EnqueueRun} {runId : Int}
    (hrun : enqueueRunTx conn cardId p db = .ok runId db')
    (hseat : Tables.Seats db.toTables cardId p.columnId) : StaysSeated db db' := by
  obtain ⟨newId, inserted, hinserted, hrest⟩ := bind_ok.mp hrun
  refine trans_of StaysSeated (insertRun_seated hinserted hseat)
    ((staysSeated_of_keeps ?_).ok hrest)
  refine (readOnly_lifecycleFault _ _).respects.bind fun _ => ?_
  refine Respects.bind (keeps_standing_updateCards standingBlind_seating
    (by intro c; exact ⟨rfl, rfl, rfl⟩)) fun _ => ?_
  exact (readOnly_refuse _ _).respects.bind fun _ => respects_pure _

/-! ## Cards -/

theorem keeps_seating_placeCardInColumnTx (position : Option Int) :
    KeepsTables Tables.seating (placeCardInColumnTx id column position) :=
  keeps_placeCardInColumnTx placeBlind_seating _ _ _

theorem keeps_seating_renumberColumnCardsTx :
    KeepsTables Tables.seating (renumberColumnCardsTx column) :=
  keeps_renumberColumnCardsTx placeBlind_seating _

theorem staysSeated_createCard (p : CardCreateParams) : Respects StaysSeated (createCard conn p) :=
  respects_createCard_of (fun _ _ => insertCard_atomic.respects fun _ _ _ => staysSeated_insertCard)
    fun _ _ _ => staysSeated_of_keeps (keeps_moveCard placeBlind_seating conn _ _ _)

theorem staysSeated_transaction {α : Type} {x : StoreM α}
    (h : ∀ a db', x db = .ok a db' → StaysSeated db db') :
    StaysSeated db (finalState (transaction x db)) :=
  (atomic_transaction x).at fun a db' hok => h a db' (transaction_ok.mp hok)

/-- What a unit of work that queues a run reads back. -/
theorem readOnly_readBack (cardId runId : Int) : ReadOnly (do
    let card ← requireCard cardId
    let run ← getRun runId
    pure (card, run) : StoreM (Card × Run)) :=
  (readOnly_requireCard _).bind fun _ => (readOnly_getRun _).bind fun _ => readOnly_pure _

theorem staysSeated_createCardAndEnqueueUow (p : CardCreateParams) (run : EnqueueRun) :
    Respects StaysSeated (createCardAndEnqueueUow conn p run) := by
  refine (readOnly_getBoard _).respects.bind fun _ =>
    (readOnly_defaultColumnId _).respects.bind fun default => ?_
  refine (readOnly_requireColumn _).bind_respects fun db target htarget =>
    (readOnly_refuse _ _).bind_at fun _ hboard => ?_
  refine (readOnly_refuse _ _).bind_at fun _ hsame => readOnly_get.bind_at fun _ hget => ?_
  simp only [requireColumn_ok, refuse_ok, not_not, and_true] at htarget hboard hsame
  obtain ⟨rfl, -⟩ := get_ok.mp hget
  refine bind_at (staysSeated_transaction fun _ db' hrun => ?_) fun ids db' _ =>
    (readOnly_readBack _ _).respects db'
  obtain ⟨cardId, inserted, hinserted, hrest⟩ := bind_ok.mp hrun
  have hseat : Tables.Seats inserted.toTables cardId run.columnId := by
    obtain ⟨htables, rfl⟩ := insertCard_ok.mp hinserted
    refine seats_of_column? (l := target) ?_ ?_
    · rw [hsame, Db.column?, htables]
      exact htarget
    · rw [Db.card?, htables, Table.find?_insert, if_pos rfl, hboard]
      rfl
  refine trans_of StaysSeated (staysSeated_insertCard hinserted) ?_
  rcases ite_ok.mp hrest with ⟨-, hrest⟩ | ⟨-, hrest⟩
  · obtain ⟨_, placed, hplaced, hrest⟩ := bind_ok.mp hrest
    obtain ⟨_, _, hqueued, hpure⟩ := bind_ok.mp hrest
    obtain ⟨-, rfl⟩ := pure_ok.mp hpure
    have hkept := (keeps_seating_placeCardInColumnTx _).ok hplaced
    exact trans_of StaysSeated (fun h => h.of_seating hkept)
      (enqueueRunTx_seated hqueued (hseat.of_land (land_of_seating hkept)))
  · obtain ⟨_, _, hqueued, hpure⟩ := bind_ok.mp hrest
    obtain ⟨-, rfl⟩ := pure_ok.mp hpure
    exact enqueueRunTx_seated hqueued hseat

theorem staysSeated_duplicateCard : Respects StaysSeated (duplicateCard conn id) := by
  refine (readOnly_requireCard id).respects.bind fun card =>
    Respects.bind (Respects.transaction ?_) fun copyId =>
    (readOnly_requireCard copyId).respects
  refine readOnly_get.respects.bind fun _ =>
    Respects.bind (insertCard_atomic.respects fun _ _ _ => staysSeated_insertCard) fun copyId => ?_
  exact (staysSeated_of_keeps (keeps_seating_placeCardInColumnTx _)).bind fun _ => respects_pure _

theorem staysSeated_moveCardAndEnqueueUow (position : Option Int) (run : EnqueueRun) :
    Respects StaysSeated (moveCardAndEnqueueUow conn id column position run) := by
  refine (readOnly_requireCard id).bind_respects fun db card hcard =>
    (readOnly_requireColumn column).bind_at fun target htarget => ?_
  refine (readOnly_refuse _ _).bind_at fun _ hboard => (readOnly_refuse _ _).bind_at fun _ hsame =>
    readOnly_get.bind_at fun _ _ => ?_
  simp only [requireCard_ok, requireColumn_ok, refuse_ok, not_not, not_or, and_true]
    at hcard htarget hboard hsame
  refine (readOnly_refuse _ _).bind_at fun _ _ => ?_
  refine bind_at (staysSeated_transaction fun _ db' hrun => ?_) fun runId db' _ =>
    (readOnly_readBack _ _).respects db'
  have hseat : Tables.Seats db.toTables id run.columnId := by
    refine seats_of_column? (hsame.2 ▸ htarget) ?_
    rw [hcard, hboard]
    rfl
  obtain ⟨_, updated, hupdated, hrest⟩ := bind_ok.mp hrun
  obtain ⟨_, placed, hplaced, hrest⟩ := bind_ok.mp hrest
  have hkept : Tables.seating placed.toTables = Tables.seating db.toTables :=
    ((keeps_seating_placeCardInColumnTx _).ok hplaced).trans
      ((keeps_updateCards_place placeBlind_seating (by intro c; exact ⟨_, _, _, rfl⟩)).ok hupdated)
  rcases ite_ok.mp hrest with ⟨-, hrest⟩ | ⟨-, hqueued⟩
  · obtain ⟨_, closed, hclosed, hqueued⟩ := bind_ok.mp hrest
    have hkept := (keeps_seating_renumberColumnCardsTx.ok hclosed).trans hkept
    exact trans_of StaysSeated (fun h => h.of_seating hkept)
      (enqueueRunTx_seated hqueued (hseat.of_land (land_of_seating hkept)))
  · exact trans_of StaysSeated (fun h => h.of_seating hkept)
      (enqueueRunTx_seated hqueued (hseat.of_land (land_of_seating hkept)))

/-- A card without an open run may change boards. -/
theorem staysSeated_transferred {f : Card → Card} {hkey} {n : Nat}
    (hrest : db.openRunForCard id = none)
    (hrun : updateCards (fun c => c.id == id) f hkey db = .ok n db') : StaysSeated db db' := by
  intro h
  rw [(updateCards_ok.mp hrun).1]
  intro r hr hopen l hl hid
  have hother : r.cardId ≠ id := by
    rintro rfl
    have hmem : r ∈ db.runs.select fun s => s.cardId == r.cardId && s.isOpen :=
      Table.mem_select.mpr ⟨hr, by simp [hopen]⟩
    rw [List.getLast?_eq_none_iff.mp hrest] at hmem
    exact absurd hmem List.not_mem_nil
  have hfind : (db.cards.update (fun c => c.id == id) f hkey).find? r.cardId =
      db.cards.find? r.cardId := by
    rw [Table.find?_update]
    cases hc : db.cards.find? r.cardId with
    | none => rfl
    | some c =>
        have hid : c.id = r.cardId := Table.key_of_find? hc
        rw [Option.map_some, if_neg (by simp [hid, hother])]
  exact (congrArg (Option.map Card.boardId) hfind).trans (h r hr hopen l hl hid)

theorem staysSeated_transferCard {position : Option Int} (hrest : db.openRunForCard id = none) :
    StaysSeated db (finalState (transferCard conn id board column position db)) := by
  refine bind_at (staysSeated_transaction fun _ db' hrun => ?_) fun _ db' _ =>
    (readOnly_requireCard id).respects db'
  simp only [bind_ok, requireCard_ok, getBoard_ok, requireColumn_ok, refuse_ok] at hrun
  obtain ⟨card, _, ⟨-, rfl⟩, _, _, ⟨-, rfl⟩, target, _, ⟨-, rfl⟩, _, _, ⟨-, rfl⟩, _, updated,
    hupdated, _, placed, hplaced, hclosed⟩ := hrun
  have hkept := (keeps_seating_renumberColumnCardsTx.ok hclosed).trans
    ((keeps_seating_placeCardInColumnTx _).ok hplaced)
  exact trans_of StaysSeated (staysSeated_transferred hrest hupdated) fun h => h.of_seating hkept

theorem staysSeated_transferCardAndEnqueueUow (position : Option Int) (run : EnqueueRun) :
    Respects StaysSeated (transferCardAndEnqueueUow conn id board column position run) := by
  refine (readOnly_requireCard id).bind_respects fun db card hcard =>
    (readOnly_getBoard board).bind_at fun _ _ => ?_
  refine (readOnly_requireColumn column).bind_at fun target htarget =>
    (readOnly_refuse _ _).bind_at fun _ hboard => ?_
  refine (readOnly_refuse _ _).bind_at fun _ hsame => readOnly_get.bind_at fun _ hget =>
    (readOnly_refuse _ _).bind_at fun _ hopen => ?_
  simp only [requireCard_ok, requireColumn_ok, refuse_ok, not_not, not_or, and_true]
    at hcard htarget hboard hsame hopen
  obtain ⟨rfl, -⟩ := get_ok.mp hget
  refine bind_at (staysSeated_transaction fun _ db' hrun => ?_) fun runId db' _ =>
    (readOnly_readBack _ _).respects db'
  obtain ⟨_, updated, hupdated, hrun⟩ := bind_ok.mp hrun
  obtain ⟨_, placed, hplaced, hrun⟩ := bind_ok.mp hrun
  obtain ⟨_, closed, hclosed, hqueued⟩ := bind_ok.mp hrun
  have hkept := (keeps_seating_renumberColumnCardsTx.ok hclosed).trans
    ((keeps_seating_placeCardInColumnTx _).ok hplaced)
  have hseat : Tables.Seats updated.toTables id run.columnId := by
    have htables := (updateCards_ok.mp hupdated).1
    refine seats_of_column? (l := target) ?_ ?_
    · rw [hsame.2, Db.column?, htables]
      exact htarget
    · rw [Db.card?, htables, Table.find?_update, show db.cards.find? id = some card from hcard,
        Option.map_some]
      have hid : card.id = id := Table.key_of_find? hcard
      rw [if_pos (by simp [hid]), hboard]
      rfl
  refine trans_of StaysSeated
    (staysSeated_transferred (Option.not_isSome_iff_eq_none.mp hopen) hupdated) ?_
  exact trans_of StaysSeated (fun h => h.of_seating hkept)
    (enqueueRunTx_seated hqueued (hseat.of_land (land_of_seating hkept)))

theorem staysSeated_enqueueRunUow (p : EnqueueRun) :
    Respects StaysSeated (enqueueRunUow conn p) := by
  refine (readOnly_requireCard _).bind_respects fun db card hcard =>
    (readOnly_requireColumn _).bind_at fun target htarget => ?_
  refine (readOnly_refuse _ _).bind_at fun _ hboard => ?_
  simp only [requireCard_ok, requireColumn_ok, refuse_ok, not_not, and_true] at hcard htarget hboard
  refine bind_at (staysSeated_transaction fun _ db' hrun => ?_) fun runId db' _ =>
    (readOnly_getRun _).respects db'
  refine enqueueRunTx_seated hrun (seats_of_column? htarget ?_)
  rw [hcard, ← hboard]
  rfl

/-- The runs of a deleted card go with it. -/
theorem staysSeated_deleteCard : Respects StaysSeated (deleteCard id) := by
  refine (readOnly_requireCard id).bind_respects fun db card _ => bind_at ?_ fun _ deleted _ =>
    staysSeated_of_keeps keeps_seating_renumberColumnCardsTx.transaction deleted
  refine (exec_atomic _).at fun _ db' hrun h => ?_
  rw [exec_ok.mp hrun]
  intro r hr hopen l hl hid
  obtain ⟨hr, hother⟩ := Table.mem_delete.mp hr
  have hother : r.cardId ≠ id := beq_eq_false_iff_ne.mp hother
  have hfind : (db.cards.delete fun c => c.id == id).find? r.cardId = db.cards.find? r.cardId := by
    rw [Table.find?_delete]
    cases hc : db.cards.find? r.cardId with
    | none => rfl
    | some c =>
        have hid : c.id = r.cardId := Table.key_of_find? hc
        simp [hid, hother]
  exact (congrArg (Option.map Card.boardId) hfind).trans (h r hr hopen l hl hid)

/-! ## Columns -/

theorem staysSeated_deleteColumn (dst : Option Int) :
    Respects StaysSeated (deleteColumn conn id dst) := by
  rw [deleteColumn_eq]
  refine (readOnly_requireColumn id).respects.bind fun column =>
    (readOnly_checkDestination _ _).respects.bind fun _ => ?_
  refine Respects.transaction (readOnly_get.respects.bind fun db => Respects.bind ?_ fun _ => ?_)
  · cases dst with
    | none => exact respects_pure ()
    | some dst => exact staysSeated_of_keeps (keeps_moveCardsTo placeBlind_seating conn dst _)
  · refine Respects.bind ((exec_atomic _).respects fun db _ db' hrun h => ?_) fun _ =>
      readOnly_get.respects.bind fun _ =>
      staysSeated_of_keeps (keeps_seating_setColumnPositions _)
    rw [exec_ok.mp hrun]
    intro r hr hopen l hl hid
    have hl : l ∈ (db.columns.delete fun c => c.id == id).update (fun _ => true) (released id)
        (fun _ => rfl) := hl
    obtain ⟨m, hm, rfl⟩ := Table.mem_update.mp hl
    exact h r hr hopen m (Table.mem_delete.mp hm).1 hid

theorem staysSeated_rejectDuplicate {duplicate : String} {row : Int → Column} {hkey} :
    Respects StaysSeated (rejectDuplicate duplicate (insertColumn row hkey)) :=
  (rejectDuplicate_atomic insertColumn_atomic).respects fun _ _ _ hrun =>
    staysSeated_insertColumn (rejectDuplicate_ok.mp hrun)

theorem staysSeated_createColumn (p : ColumnCreateParams) :
    Respects StaysSeated (createColumn p) := by
  refine (readOnly_getBoard _).respects.bind fun _ =>
    (readOnly_validateColumnTargets _ _ _).respects.bind fun _ => ?_
  refine readOnly_get.respects.bind fun db => staysSeated_rejectDuplicate.bind fun newId => ?_
  split
  · exact (staysSeated_of_keeps (keeps_seating_reorderColumn newId _)).bind fun _ =>
      (readOnly_requireColumn newId).respects
  · exact (readOnly_requireColumn newId).respects

theorem keeps_seating_updateColumn (p : ColumnUpdateParams) :
    KeepsTables Tables.seating (updateColumn p) := by
  refine (readOnly_requireColumn _).respects.bind fun old =>
    (readOnly_validateColumnTargets _ _ _).respects.bind fun _ => ?_
  refine Respects.bind
    (keeps_rejectDuplicate (keeps_seating_updateColumns (by intro l; rfl))) fun _ => ?_
  split
  · exact (keeps_seating_reorderColumn _ _).bind fun _ => (readOnly_requireColumn _).respects
  · exact (readOnly_requireColumn _).respects

theorem staysSeated_applyTemplateColumnsUow (specs : List ColumnCreateParams)
    (wiring : List ColumnWiring) :
    Respects StaysSeated (applyTemplateColumnsUow board specs wiring) := by
  refine (readOnly_getBoard board).respects.bind fun _ =>
    (readOnly_checkTemplateSpecs board specs).respects.bind fun _ => ?_
  refine Respects.bind (Respects.transaction (Respects.bind ?_ fun ids => ?_)) fun _ =>
    readOnly_get.respects.bind fun _ => respects_pure _
  · induction specs with
    | nil => exact respects_pure []
    | cons spec specs ih =>
        exact readOnly_get.respects.bind fun db => staysSeated_rejectDuplicate.bind fun _ =>
          ih.bind fun _ => respects_pure _
  · induction wiring with
    | nil => exact respects_pure ()
    | cons wire wiring ih =>
        refine (readOnly_okOr _ _).respects.bind fun columnId =>
          (readOnly_resolveTarget _ _ _).respects.bind fun _ => ?_
        refine (readOnly_resolveTarget _ _ _).respects.bind fun _ => ?_
        exact Respects.bind (staysSeated_of_keeps (keeps_seating_updateColumns (by intro l; rfl)))
          fun _ => ih

theorem staysSeated_seedTodoTx (board : Int) : Respects StaysSeated (seedTodoTx board) := by
  refine readOnly_get.respects.bind fun _ => respects_ite (fun _ => ?_) fun _ => respects_pure ()
  exact Respects.bind (insertColumn_atomic.respects fun _ _ _ => staysSeated_insertColumn) fun _ =>
    respects_pure ()

/-! ## Finalizing -/

/-- A run that has ended needs no seat. -/
theorem staysSeated_ended {runId : Int} {f : Run → Run} {hkey} {u : Unit}
    (hended : ∀ r, (f r).isOpen = false)
    (hrun : updateRuns (fun r => r.id == runId) f hkey db = .ok u db') : StaysSeated db db' := by
  intro h
  rw [updateRuns_ok.mp hrun]
  intro r hr hopen
  have hr : r ∈ db.runs.update (fun r => r.id == runId) f hkey := hr
  obtain ⟨r₀, hr₀, rfl⟩ := Table.mem_update.mp hr
  split at hopen
  · rw [hended] at hopen
    cases hopen
  · next hother =>
      rw [if_neg hother]
      exact h r₀ hr₀ hopen

theorem checkNext_seats {next : EnqueueRun} {u : Unit}
    (hcheck : checkNext cardId (some next) db = .ok u db) :
    Tables.Seats db.toTables next.cardId next.columnId := by
  simp only [checkNext, bind_ok, refuse_ok, get_ok, not_not, Bool.not_eq_false] at hcheck
  obtain ⟨_, _, ⟨hsame, rfl⟩, _, _, ⟨rfl, rfl⟩, hmatches, -⟩ := hcheck
  exact hsame ▸ seats_of_boardMatches hmatches

theorem staysSeated_finalizeRunTx {p : FinalizeRun} {ids : Int × Option Int}
    (hrun : finalizeRunTx conn p db = .ok ids db') : StaysSeated db db' := by
  simp only [finalizeRunTx, bind_ok, get_ok, okOr_ok, pure_ok] at hrun
  obtain ⟨_, _, ⟨rfl, rfl⟩, run, _, ⟨-, rfl⟩, _, _, hcheck, _, ended, hended, _, _, hfault, _, told,
    htold, _, moved, hmoved, _, settled, hsettled, _, _, hnext, -, rfl⟩ := hrun
  cases (readOnly_checkNext _ _).ok hcheck
  cases lifecycleFault_ok hfault
  have hkept : Tables.seating settled.toTables = Tables.seating ended.toTables :=
    (((keeps_standing_updateCards standingBlind_seating (by intro c; exact ⟨rfl, rfl, rfl⟩)).ok
      hsettled).trans
      ((keeps_applyTransition placeBlind_seating _ _).ok hmoved)).trans
        ((keeps_insertComments commentBlind_seating _ _ _).ok htold)
  have hseated : StaysSeated db settled :=
    trans_of StaysSeated (staysSeated_ended (by intro r; rfl) hended) fun h => h.of_seating hkept
  refine trans_of StaysSeated hseated ?_
  cases hp : p.next with
  | none =>
      rw [hp] at hnext
      obtain ⟨-, rfl⟩ := pure_ok.mp hnext
      exact refl_of StaysSeated settled
  | some next =>
      rw [hp] at hnext hcheck
      obtain ⟨newId, inserted, hinserted, hrest⟩ := bind_ok.mp hnext
      have hland : Tables.land ended.toTables = Tables.land db.toTables := by
        rw [updateRuns_ok.mp hended]
        rfl
      have hseat := (checkNext_seats hcheck).of_land ((land_of_seating hkept).trans hland)
      refine trans_of StaysSeated (insertRun_seated hinserted hseat)
        ((staysSeated_of_keeps ?_).ok hrest)
      exact Respects.bind (keeps_standing_updateCards standingBlind_seating
        (by intro c; exact ⟨rfl, rfl, rfl⟩)) fun _ => respects_pure _

theorem staysSeated_finalizeRunUow (p : FinalizeRun) :
    Respects StaysSeated (finalizeRunUow conn p) := by
  refine Respects.bind ((atomic_transaction _).respects fun _ _ _ hrun =>
    staysSeated_finalizeRunTx (transaction_ok.mp hrun)) fun ids => ?_
  exact (readOnly_requireCard _).respects.bind fun _ => (readOnly_getRun _).respects.bind fun _ =>
    (readOnly_getNextRun _).respects.bind fun _ => respects_pure _

end HerdrBoard.Editing
