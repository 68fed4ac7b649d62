import HerdrBoard.Editing.Boundaries
import HerdrBoard.Lifecycle.Hopping

/-!
# Integrity of boards

Every call of the store keeps the boundaries of boards.
-/

open Lib HerdrBoard.Core HerdrBoard.Daemon HerdrBoard.Lifecycle

namespace HerdrBoard.Editing

variable {conn : Conn} {db db' : Db} {t t' : Tables} {id column board : Int}

/-! ## Columns -/

theorem present_cards (db : Db) : db.cards.Present db.columns fun c k => c.columnId = k := by
  rintro c hc k rfl
  exact Table.mem_keys.mpr (db.card_column hc)

theorem present_columns (db : Db) : db.columns.Present db.columns leadsTo := by
  intro l hl k hk
  obtain ⟨-, hsuccess, hfail⟩ := db.foreignKeysOk.2.1 l hl
  rcases hk with hk | hk
  · rw [hk] at hsuccess
    exact Table.find?_isSome_iff.mp hsuccess
  · rw [hk] at hfail
    exact Table.find?_isSome_iff.mp hfail

/-- Both targets of a column are on the board. -/
theorem leadsTo_on {l : Column} (hsuccess : db.TargetOn board l.onSuccessColumnId)
    (hfail : db.TargetOn board l.onFailColumnId)
    {k : Int} (hk : leadsTo l k) : ∃ target, db.column? k = some target ∧ target.boardId = board :=
  hk.elim (hsuccess k) (hfail k)

theorem staysBounded_insertColumn {row : Int → Column} {hkey} {newId : Int}
    (hrun : insertColumn row hkey db = .ok newId db')
    (hsuccess : db.TargetOn (row db.columns.nextKey).boardId
      (row db.columns.nextKey).onSuccessColumnId)
    (hfail : db.TargetOn (row db.columns.nextKey).boardId (row db.columns.nextKey).onFailColumnId) :
    StaysBounded db db' := by
  intro h
  rw [(insertColumn_ok.mp hrun).1]
  refine ⟨h.cards.insert_referred (present_cards db) hkey, ?_⟩
  have hnew : (db.columns.insert row hkey).Agree db.columns leadsTo Column.boardId
      Column.boardId := by
    refine h.columns.insert hkey fun l hl hk => ?_
    obtain ⟨target, htarget, hboard⟩ := leadsTo_on hsuccess hfail hk
    exact hboard.symm.trans (boardId_of_column? htarget hl rfl).symm
  refine hnew.insert_referred (fun l hl k hk => ?_) hkey
  rcases Table.mem_insert.mp hl with hl | rfl
  · exact present_columns db l hl k hk
  · obtain ⟨target, htarget, -⟩ := leadsTo_on hsuccess hfail hk
    exact Table.find?_isSome_iff.mp (Option.isSome_iff_exists.mpr ⟨target, htarget⟩)

theorem insertColumn_atomic {row : Int → Column} {hkey} : Atomic (insertColumn row hkey) :=
  readOnly_get.bind_atomic fun _ => (exec_atomic _).bind_total fun _ => total_pure _

/-- Columns that stay on their boards and lead to columns there. -/
theorem staysBounded_updateColumns {p : Column → Bool} {f : Column → Column} {hkey} {u : Unit}
    (hrun : updateColumns p f hkey db = .ok u db') (hboard : ∀ l, (f l).boardId = l.boardId)
    (htargets : ∀ l ∈ db.columns, p l = true → db.TargetOn l.boardId (f l).onSuccessColumnId ∧
    db.TargetOn l.boardId (f l).onFailColumnId) : StaysBounded db db' := by
  intro h
  rw [updateColumns_ok.mp hrun]
  refine ⟨h.cards.update_referred hkey hboard,
    (h.columns.update hkey fun l hl hp m hm hk => ?_).update_referred hkey hboard⟩
  obtain ⟨target, htarget, htheirs⟩ := leadsTo_on (htargets l hl hp).1 (htargets l hl hp).2 hk
  rw [hboard, ← htheirs]
  exact (boardId_of_column? htarget hm rfl).symm

theorem staysBounded_rejectDuplicate {α : Type} {duplicate : String} {x : StoreM α} (hx : Atomic x)
    (hok : ∀ a db', x db = .ok a db' → StaysBounded db db') :
    StaysBounded db (finalState (rejectDuplicate duplicate x db)) :=
  (rejectDuplicate_atomic hx).at fun a db' h => hok a db' (rejectDuplicate_ok.mp h)

theorem staysBounded_seedTodoTx (board : Int) : Respects StaysBounded (seedTodoTx board) := by
  refine readOnly_get.respects.bind fun _ => respects_ite (fun _ => ?_) fun _ => respects_pure ()
  refine Respects.bind (insertColumn_atomic.respects fun db _ db' hrun => ?_) fun _ =>
    respects_pure ()
  exact staysBounded_insertColumn hrun (fun k hk => nomatch hk) fun k hk => nomatch hk

theorem staysBounded_createColumn (p : ColumnCreateParams) :
    Respects StaysBounded (createColumn p) := by
  refine (readOnly_getBoard _).respects.bind fun _ => ?_
  refine (readOnly_validateColumnTargets _ _ _).bind_respects fun db _ htargets =>
    readOnly_get.bind_at fun _ hget => ?_
  obtain ⟨rfl, -⟩ := get_ok.mp hget
  obtain ⟨hsuccess, hfail, -⟩ := validateColumnTargets_ok.mp htargets
  refine bind_at (staysBounded_rejectDuplicate insertColumn_atomic fun _ _ hrun => ?_)
    fun newId inserted _ => ?_
  · exact staysBounded_insertColumn hrun hsuccess hfail
  · cases p.position with
    | some position =>
        exact (staysBounded_of_keeps (keeps_borders_reorderColumn newId position)).bind
          (fun _ => (readOnly_requireColumn newId).respects) inserted
    | none => exact (readOnly_requireColumn newId).respects inserted

theorem staysBounded_updateColumn (p : ColumnUpdateParams) :
    Respects StaysBounded (updateColumn p) := by
  refine (readOnly_requireColumn _).bind_respects fun db old hold =>
    (readOnly_validateColumnTargets _ _ _).bind_at fun _ htargets => ?_
  have hold := (requireColumn_ok.mp hold).1
  obtain ⟨hsuccess, hfail, -⟩ := validateColumnTargets_ok.mp htargets
  refine bind_at (staysBounded_rejectDuplicate (exec_atomic _) fun _ _ hrun => ?_)
    fun _ updated _ => ?_
  · refine staysBounded_updateColumns hrun (fun _ => rfl) fun l hl hid => ?_
    have hsame : l.boardId = old.boardId := by
      refine boardId_of_column? hold hl ?_
      exact (Table.key_of_find? hold).symm.trans (beq_iff_eq.mp hid).symm
    rw [hsame]
    exact ⟨hsuccess, hfail⟩
  · cases p.position with
    | some position =>
        exact (staysBounded_of_keeps (keeps_borders_reorderColumn _ position)).bind
          (fun _ => (readOnly_requireColumn _).respects) updated
    | none => exact (readOnly_requireColumn _).respects updated

/-! ## Deleting a column -/

theorem placeBlind_seats : PlaceBlind Tables.seats :=
  fun t p f hkey hf => seats_of_grounds (placeBlind_grounds t p f hkey hf)

/-- Cards of the board moved to one of its columns. -/
theorem moveCardsTo_bounded {ids : List Int} {u : Unit} {target : Column}
    (htarget : db.column? column = some target)
    (hcards : ∀ k ∈ ids, ∀ b, (Tables.seats db.toTables).2 k = some b → b = target.boardId)
    (hrun : moveCardsTo conn column ids db = .ok u db') : StaysBounded db db' := by
  induction ids generalizing db with
  | nil =>
      obtain ⟨-, rfl⟩ := pure_ok.mp hrun
      exact refl_of StaysBounded db
  | cons k ids ih =>
      obtain ⟨_, updated, hupdated, hrest⟩ := bind_ok.mp hrun
      obtain ⟨_, placed, hplaced, hrest⟩ := bind_ok.mp hrest
      have hseats : Tables.seats placed.toTables = Tables.seats db.toTables :=
        ((keeps_placeCardInColumnTx placeBlind_seats k column none).ok hplaced).trans
          ((keeps_updateCards_place placeBlind_seats (by intro c; exact ⟨_, _, _, rfl⟩)).ok
            hupdated)
      refine trans_of StaysBounded
        (staysBounded_updateCards hupdated fun c hc hid l hl hcolumn => ?_) ?_
      · have hfind : db.cards.find? k = some c := Table.find?_eq_some.mpr ⟨hc, beq_iff_eq.mp hid⟩
        have hboard : c.boardId = target.boardId :=
          hcards k List.mem_cons_self _ (congrArg (Option.map Card.boardId) hfind)
        exact hboard.trans (boardId_of_column? htarget hl hcolumn).symm
      · refine trans_of StaysBounded
          ((staysBounded_of_keeps (keeps_borders_placeCardInColumnTx _ _)).ok hplaced)
            (ih ?_ ?_ hrest)
        · rw [Db.column?, show placed.columns = db.columns from congrArg Prod.fst hseats]
          exact htarget
        · rw [hseats]
          exact fun k' hk' => hcards k' (List.mem_cons_of_mem _ hk')

/-- A column goes, and with it the transitions that led to it. -/
theorem bounded_deleteColumnRow (h : Tables.Bounded t) (id : Int) : Tables.Bounded { t with
    columns := (t.columns.delete fun c => c.id == id).update (fun _ => true) (released id) } := by
  have hkey (l : Column) : Keyed.key (released id l) = Keyed.key l := rfl
  have hboard (l : Column) : (released id l).boardId = l.boardId := rfl
  refine ⟨(h.cards.delete_referred _).update_referred hkey hboard,
    Table.Agree.update_referred ?_ hkey hboard⟩
  refine ((h.columns.delete _).delete_referred _).update hkey fun l hl _ m hm hk => ?_
  refine h.columns l (Table.mem_delete.mp hl).1 m (Table.mem_delete.mp hm).1 (hk.imp ?_ ?_)
  · exact fun hk => (Option.filter_eq_some_iff.mp hk).1
  · exact fun hk => (Option.filter_eq_some_iff.mp hk).1

theorem staysBounded_deleteColumn (dst : Option Int) :
    Respects StaysBounded (deleteColumn conn id dst) := by
  rw [deleteColumn_eq]
  refine (readOnly_requireColumn id).bind_respects fun db column hcolumn =>
    (readOnly_checkDestination _ _).bind_at fun _ hdst => ?_
  have hcolumn := (requireColumn_ok.mp hcolumn).1
  obtain ⟨hdst, -⟩ := checkDestination_ok.mp hdst
  refine staysBounded_transaction fun _ db' hrun h => ?_
  simp only [bind_ok, get_ok, takeOut_ok] at hrun
  obtain ⟨_, _, ⟨rfl, rfl⟩, _, moved, hmoved, gone, hgone, hplaced⟩ := hrun
  have hmoved : Tables.Bounded moved.toTables := by
    cases dst with
    | none =>
        obtain ⟨-, rfl⟩ := pure_ok.mp hmoved
        exact h
    | some dst =>
        obtain ⟨target, htarget, hboard⟩ := hdst dst rfl
        refine moveCardsTo_bounded htarget (fun k hk b hb => ?_) hmoved h
        obtain ⟨c, hc, hstands, rfl⟩ := Table.mem_slots.mp hk
        have hc' : db.cards.find? (Keyed.key c) = some c := Table.find?_key hc
        obtain rfl : c.boardId = b :=
          Option.some.inj ((congrArg (Option.map Card.boardId) hc').symm.trans hb)
        rw [hboard]
        exact h.cards c hc column (Table.mem_of_find? hcolumn)
          (hstands.trans (Table.key_of_find? hcolumn).symm)
  have hgone : Tables.Bounded gone.toTables := hgone ▸ bounded_deleteColumnRow hmoved id
  exact (staysBounded_of_keeps (keeps_borders_setColumnPositions _)).ok
    ((setColumnPositions_ok (u := ())).mpr hplaced) hgone

/-! ## Templates -/

/-- The column is there, on the board. -/
def OnBoard (db : Db) (board k : Int) : Prop := db.TargetOn board (some k)

theorem onBoard_iff {k : Int} :
    OnBoard db board k ↔ ∃ c, db.column? k = some c ∧ c.boardId = board := by
  simp [OnBoard, Db.TargetOn]

theorem OnBoard.insertColumn {k : Int} (h : OnBoard db board k) {row : Int → Column} {hkey}
    {newId : Int} (hrun : insertColumn row hkey db = .ok newId db') : OnBoard db' board k := by
  obtain ⟨c, hc, hboard⟩ := onBoard_iff.mp h
  refine onBoard_iff.mpr ⟨c, ?_, hboard⟩
  rw [Db.column?, (insertColumn_ok.mp hrun).1, Table.find?_insert, if_neg]
  · exact hc
  · rintro rfl
    exact absurd hc (by rw [Db.column?, Table.find?_nextKey]; simp)

theorem OnBoard.updateColumns {k : Int} (h : OnBoard db board k) {p : Column → Bool}
    {f : Column → Column} {hkey} {u : Unit}
    (hrun : updateColumns p f hkey db = .ok u db') (hf : ∀ l, (f l).boardId = l.boardId) :
    OnBoard db' board k := by
  obtain ⟨c, hc, rfl⟩ := onBoard_iff.mp h
  refine onBoard_iff.mpr ⟨if p c then f c else c, ?_, ?_⟩
  · rw [Db.column?, updateColumns_ok.mp hrun, Table.find?_update,
      show db.columns.find? k = some c from hc]
    rfl
  · split
    · exact hf c
    · rfl

theorem insertTemplateColumns_bounded {specs : List ColumnCreateParams} {ids : List Int}
    (hrun : insertTemplateColumns board specs db = .ok ids db') :
    StaysBounded db db' ∧ (∀ k ∈ ids, OnBoard db' board k) ∧ ∀ k, OnBoard db board k →
      OnBoard db' board k := by
  induction specs generalizing db ids with
  | nil =>
      obtain ⟨rfl, rfl⟩ := pure_ok.mp hrun
      exact ⟨refl_of StaysBounded db, fun k hk => absurd hk List.not_mem_nil, fun _ => id⟩
  | cons spec specs ih =>
      simp only [insertTemplateColumns, bind_ok, get_ok, rejectDuplicate_ok, pure_ok] at hrun
      obtain ⟨_, _, ⟨rfl, rfl⟩, newId, inserted, hinserted, rest, _, hrest, rfl, rfl⟩ := hrun
      obtain ⟨hbounded, hids, hkept⟩ := ih hrest
      have hfirst : StaysBounded db inserted :=
        staysBounded_insertColumn hinserted (fun k hk => nomatch hk) fun k hk => nomatch hk
      refine ⟨trans_of StaysBounded hfirst hbounded, fun k hk => ?_,
        fun k hk => hkept k (hk.insertColumn hinserted)⟩
      rcases List.mem_cons.mp hk with rfl | hk
      · refine hkept k (onBoard_iff.mpr
          ⟨newColumn spec board (db.columns.endPosition board) none none k, ?_, rfl⟩)
        obtain ⟨htables, rfl⟩ := insertColumn_ok.mp hinserted
        rw [Db.column?, htables, Table.find?_insert, if_pos rfl]
      · exact hids k hk

theorem resolveTarget_on {ids : List Int} (hids : ∀ k ∈ ids, OnBoard db board k)
    {target : Option ColumnTarget} {resolved : Option Int}
    (hrun : Core.resolveTarget board ids target db = .ok resolved db') :
    db.TargetOn board resolved := by
  cases target with
  | none =>
      obtain ⟨rfl, -⟩ := pure_ok.mp hrun
      exact fun k hk => nomatch hk
  | some target =>
      cases target with
      | created index =>
          simp only [Core.resolveTarget, bind_ok, okOr_ok, pure_ok] at hrun
          obtain ⟨k, _, ⟨hk, -⟩, rfl, -⟩ := hrun
          exact hids k (List.mem_of_getElem? hk)
      | existing k =>
          simp only [Core.resolveTarget, bind_ok, requireColumn_ok, refuse_ok, not_not, pure_ok]
            at hrun
          obtain ⟨c, _, ⟨hc, -⟩, _, _, ⟨hboard, -⟩, rfl, -⟩ := hrun
          exact onBoard_iff.mpr ⟨c, hc, hboard⟩

theorem wireColumns_bounded {ids : List Int} {wiring : List ColumnWiring} {u : Unit}
    (hids : ∀ k ∈ ids, OnBoard db board k)
    (hrun : wireColumns board ids wiring db = .ok u db') : StaysBounded db db' := by
  induction wiring generalizing db with
  | nil =>
      obtain ⟨-, rfl⟩ := pure_ok.mp hrun
      exact refl_of StaysBounded db
  | cons wire wiring ih =>
      obtain ⟨k, _, hsource, hrun⟩ := bind_ok.mp hrun
      obtain ⟨hk, rfl⟩ := okOr_ok.mp hsource
      obtain ⟨onSuccess, mid, hsuccess, hrun⟩ := bind_ok.mp hrun
      cases (readOnly_resolveTarget board ids _).ok hsuccess
      obtain ⟨onFail, mid, hfail, hrun⟩ := bind_ok.mp hrun
      cases (readOnly_resolveTarget board ids _).ok hfail
      obtain ⟨_, wired, hwired, hrest⟩ := bind_ok.mp hrun
      refine trans_of StaysBounded
        (staysBounded_updateColumns hwired (fun _ => rfl) fun l hl hid => ?_)
        (ih (fun k' hk' => (hids k' hk').updateColumns hwired fun _ => rfl) hrest)
      obtain ⟨c, hc, hboard⟩ := onBoard_iff.mp (hids k (List.mem_of_getElem? hk))
      rw [boardId_of_column? hc hl (beq_iff_eq.mp hid).symm, hboard]
      exact ⟨resolveTarget_on hids hsuccess, resolveTarget_on hids hfail⟩

theorem staysBounded_applyTemplateColumnsUow (specs : List ColumnCreateParams)
    (wiring : List ColumnWiring) :
    Respects StaysBounded (applyTemplateColumnsUow board specs wiring) := by
  refine (readOnly_getBoard board).respects.bind fun _ =>
    (readOnly_checkTemplateSpecs board specs).respects.bind fun _ => fun db => ?_
  refine bind_at (staysBounded_transaction fun _ db' hrun => ?_) fun _ db' _ =>
    refl_of StaysBounded db'
  obtain ⟨ids, inserted, hinserted, hwired⟩ := bind_ok.mp hrun
  obtain ⟨hbounded, hids, -⟩ := insertTemplateColumns_bounded hinserted
  exact trans_of StaysBounded hbounded (wireColumns_bounded hids hwired)

/-! ## Finalizing -/

theorem staysBounded_applyTransition (cardId : Int) (target : Option Int) :
    Respects StaysBounded (applyTransition cardId target) := by
  cases target with
  | none => exact respects_pure ()
  | some columnId =>
      refine readOnly_get.bind_respects fun db _ hget =>
        (readOnly_refuse _ _).bind_at fun _ hmatches => ?_
      obtain ⟨rfl, -⟩ := get_ok.mp hget
      refine (readOnly_requireCard cardId).bind_at fun card hcard => ?_
      have hcard := (requireCard_ok.mp hcard).1
      obtain ⟨column, hcolumn, hboard⟩ :=
        boardMatches_iff.mp ((Bool.not_eq_false _).mp (refuse_ok.mp hmatches).1)
      rw [hcard] at hboard
      have hboard : card.boardId = column.boardId := Option.some.inj hboard
      refine bind_at (updateCards_atomic.at fun _ _ hrun => ?_) fun _ moved _ => ?_
      · exact staysBounded_rewritten hcard hcolumn (by intro c; rfl) hboard hrun
      · refine staysBounded_of_keeps (readOnly_get.respects.bind fun _ =>
          (keeps_positions positionBlind_borders _).bind fun _ => ?_) moved
        exact respects_ite (fun _ => keeps_positions_renumberColumnCardsTx positionBlind_borders _)
          fun _ => respects_pure ()

theorem staysBounded_finalizeRunUow (p : FinalizeRun) :
    Respects StaysBounded (finalizeRunUow conn p) := by
  have hread : ∀ ids : Int × Option Int, ReadOnly (do
      let card ← requireCard ids.1
      let finishedRun ← getRun p.runId
      let nextRun ← getNextRun ids.2
      pure { card, finishedRun, nextRun : FinalizeEffects } : StoreM FinalizeEffects) := fun ids =>
    (readOnly_requireCard _).bind fun _ => (readOnly_getRun _).bind fun _ =>
      (readOnly_getNextRun _).bind fun _ => readOnly_pure _
  refine Respects.bind (Respects.transaction ?_) fun ids => (hread ids).respects
  refine readOnly_get.respects.bind fun db => (readOnly_okOr _ _).respects.bind fun run => ?_
  refine (readOnly_checkNext _ _).respects.bind fun _ =>
    (staysBounded_of_keeps (keeps_updateRuns_runBlind runBlind_borders)).bind fun _ => ?_
  refine (readOnly_lifecycleFault _ _).respects.bind fun _ => ?_
  refine (staysBounded_of_keeps (keeps_insertComments commentBlind_borders _ _ _)).bind fun _ => ?_
  refine (staysBounded_applyTransition _ _).bind fun _ => ?_
  refine Respects.bind
    (staysBounded_of_keeps
      (keeps_standing_updateCards standingBlind_borders (by intro c; exact ⟨rfl, rfl, rfl⟩)))
    fun _ => ?_
  exact (staysBounded_of_keeps (keeps_standing_insertNext standingBlind_borders runBlind_borders _
    _)).bind fun _ => respects_pure _

end HerdrBoard.Editing
