import HerdrBoard.Editing.Dense
import HerdrBoard.Lib.Reference

/-!
# Board boundaries

A card stands in a column of its own board, and the transitions of a column lead to columns
of its board. -/

open Lib HerdrBoard.Core HerdrBoard.Daemon HerdrBoard.Lifecycle

namespace HerdrBoard.Editing

variable {conn : Conn} {db db' : Db} {t t' : Tables} {id column : Int}

/-- The columns a run sends its card to. -/
def leadsTo (l : Column) (k : Int) : Prop :=
  l.onSuccessColumnId = some k ∨ l.onFailColumnId = some k

structure Tables.Bounded (t : Tables) : Prop where
  cards : t.cards.Agree t.columns (fun c k => c.columnId = k) Card.boardId Column.boardId
  columns : t.columns.Agree t.columns leadsTo Column.boardId Column.boardId

/-- What `Bounded` looks at. -/
def Tables.borders (t : Tables) :
    List (Int × Int × Int) × List (Int × Int × Option Int × Option Int) :=
  (t.cards.rows.map fun c => (c.id, c.boardId, c.columnId),
    t.columns.rows.map fun l => (l.id, l.boardId, l.onSuccessColumnId, l.onFailColumnId))

theorem exists_of_map_eq {α β : Type} {f : α → β} {l l' : List α} (h : l'.map f = l.map f) {a : α}
    (ha : a ∈ l') : ∃ b ∈ l, f a = f b := by
  have hmem : f a ∈ l.map f := h ▸ List.mem_map_of_mem ha
  obtain ⟨b, hb, hfb⟩ := List.mem_map.mp hmem
  exact ⟨b, hb, hfb.symm⟩

theorem Tables.Bounded.of_borders (h : Tables.Bounded t)
    (hborders : Tables.borders t' = Tables.borders t) : Tables.Bounded t' := by
  have hcolumns : ∀ l ∈ t'.columns, ∃ l₀ ∈ t.columns, l.id = l₀.id ∧ l.boardId = l₀.boardId ∧
      ∀ k, leadsTo l k → leadsTo l₀ k := by
    intro l hl
    obtain ⟨l₀, hl₀, hsame⟩ := exists_of_map_eq (congrArg Prod.snd hborders) hl
    simp only [Prod.mk.injEq] at hsame
    exact ⟨l₀, hl₀, hsame.1, hsame.2.1,
      fun k hk => by simpa only [leadsTo, hsame.2.2.1, hsame.2.2.2] using hk⟩
  constructor
  · refine h.cards.of_forall (fun c hc => ?_) fun l hl => ?_
    · obtain ⟨c₀, hc₀, hsame⟩ := exists_of_map_eq (congrArg Prod.fst hborders) hc
      simp only [Prod.mk.injEq] at hsame
      exact ⟨c₀, hc₀, fun k hk => hsame.2.2 ▸ hk, hsame.2.1⟩
    · obtain ⟨l₀, hl₀, hid, hboard, -⟩ := hcolumns l hl
      exact ⟨l₀, hl₀, hid, hboard⟩
  · refine h.columns.of_forall (fun l hl => ?_) fun l hl => ?_
    · obtain ⟨l₀, hl₀, -, hboard, hleads⟩ := hcolumns l hl
      exact ⟨l₀, hl₀, hleads, hboard⟩
    · obtain ⟨l₀, hl₀, hid, hboard, -⟩ := hcolumns l hl
      exact ⟨l₀, hl₀, hid, hboard⟩

/-- The boundaries are kept. -/
def StaysBounded (db db' : Db) : Prop := Tables.Bounded db.toTables → Tables.Bounded db'.toTables

instance : Std.Refl StaysBounded := ⟨fun _ h => h⟩

instance : IsTrans Db StaysBounded := ⟨fun _ _ _ h h' => h' ∘ h⟩

section Keeps

variable {α : Type} {x : StoreM α}

theorem staysBounded_of_keeps (hx : KeepsTables Tables.borders x) : Respects StaysBounded x :=
  fun db h => h.of_borders (hx db)

theorem staysBounded_exec {f : Tables → Tables}
    (hf : Tables.Bounded db.toTables → Tables.Bounded (f db.toTables)) :
    StaysBounded db (finalState (exec f db)) := by
  refine (exec_atomic f).at fun _ db' hok h => ?_
  rw [exec_ok.mp hok]
  exact hf h

theorem staysBounded_transaction (h : ∀ a db', x db = .ok a db' → StaysBounded db db') :
    StaysBounded db (finalState (transaction x db)) :=
  (atomic_transaction x).at fun a db' hok => h a db' (transaction_ok.mp hok)

end Keeps

/-! ## Statements that do not see the boundaries -/

theorem positionBlind_borders : PositionBlind Tables.borders := by
  intro t p i
  have hcards : (t.cards.update p (Placed.setPosition i) (Placed.key_setPosition _)).rows.map
      (fun c : Card => (c.id, c.boardId, c.columnId)) = t.cards.rows.map fun c =>
        (c.id, c.boardId, c.columnId) :=
    Table.map_rows_update fun _ _ => rfl
  exact Prod.ext hcards rfl

theorem commentBlind_borders : CommentBlind Tables.borders := fun _ _ _ => rfl

theorem siteBlind_borders : SiteBlind Tables.borders := ⟨fun _ _ _ => rfl, fun _ _ _ _ _ => rfl⟩

theorem standingBlind_borders : StandingBlind Tables.borders where
  cards t p f hkey hf := by
    have hcards : (t.cards.update p f hkey).rows.map
        (fun c : Card => (c.id, c.boardId, c.columnId)) =
        t.cards.rows.map fun c => (c.id, c.boardId, c.columnId) := by
      refine Table.map_rows_update fun c _ => ?_
      have hid : (f c).id = c.id := hkey c
      rw [hid, (hf c).1, (hf c).2.1]
    exact Prod.ext hcards rfl
  runs _ _ _ _ _ := rfl

theorem runBlind_borders : RunBlind Tables.borders := fun _ _ => rfl

theorem keeps_borders_placeCardInColumnTx (column : Int) (position : Option Int) :
    KeepsTables Tables.borders (placeCardInColumnTx id column position) :=
  readOnly_get.respects.bind fun _ => keeps_positions positionBlind_borders _

theorem keeps_borders_setColumnPositions (ids : List Int) :
    KeepsTables Tables.borders (setColumnPositions ids) := by
  refine (setColumnPositions_total ids).atomic.respects fun db _ db' hok => ?_
  have htables := setColumnPositions_ok.mp hok
  have hunplaced : (db.columns.renumber ids).map unplaced (fun _ => rfl) =
      db.columns.map unplaced :=
    Table.map_renumber (fun _ _ => rfl) ids
  have hrows := congrArg (fun columns : Table Column => columns.rows.map fun l =>
    (l.id, l.boardId, l.onSuccessColumnId, l.onFailColumnId)) hunplaced
  simp only [Table.map, List.map_map] at hrows
  show Tables.borders db'.toTables = Tables.borders db.toTables
  rw [htables]
  exact Prod.ext rfl hrows

theorem keeps_borders_enqueueRunTx (cardId : Int) (p : EnqueueRun) :
    KeepsTables Tables.borders (enqueueRunTx conn cardId p) :=
  keeps_standing_enqueueRunTx standingBlind_borders runBlind_borders cardId p

theorem keeps_borders_reorderColumn (id position : Int) :
    KeepsTables Tables.borders (reorderColumn id position) :=
  (readOnly_requireColumn id).respects.bind fun _ => Respects.bind
    (Respects.transaction (readOnly_get.respects.bind fun _ => keeps_borders_setColumnPositions _))
    fun _ => readOnly_get.respects.bind fun _ => respects_pure _

/-! ## Cards -/

/-- Rewritten cards stand in columns of their boards. -/
theorem bounded_updateCards (h : Tables.Bounded t) {p : Card → Bool} {f : Card → Card} {hkey}
    (hf : ∀ c ∈ t.cards, p c = true → ∀ l ∈ t.columns, (f c).columnId = l.id →
      (f c).boardId = l.boardId) :
    Tables.Bounded { t with cards := t.cards.update p f hkey } :=
  ⟨h.cards.update hkey hf, h.columns⟩

theorem bounded_insertCard (h : Tables.Bounded t) {row : Int → Card} {hkey}
    (hrow : ∀ l ∈ t.columns, (row t.cards.nextKey).columnId = l.id →
      (row t.cards.nextKey).boardId = l.boardId) :
    Tables.Bounded { t with cards := t.cards.insert row hkey } :=
  ⟨h.cards.insert hkey hrow, h.columns⟩

/-- A column that was found is the only one with its id. -/
theorem boardId_of_column? {column : Column} (hcolumn : db.column? id = some column) {l : Column}
    (hl : l ∈ db.columns) (hid : id = l.id) : l.boardId = column.boardId := by
  have hfind : db.columns.find? id = some l := hid ▸ Table.find?_key hl
  exact congrArg Column.boardId (Option.some.inj (hfind.symm.trans hcolumn))

theorem staysBounded_updateCards {p : Card → Bool} {f : Card → Card} {hkey} {n : Nat}
    (hrun : updateCards p f hkey db = .ok n db')
    (hf : ∀ c ∈ db.cards, p c = true → ∀ l ∈ db.columns, (f c).columnId = l.id →
    (f c).boardId = l.boardId) : StaysBounded db db' := by
  intro h
  rw [(updateCards_ok.mp hrun).1]
  exact bounded_updateCards h hf

theorem staysBounded_insertCard {row : Int → Card} {hkey} {target : Column} {newId : Int}
    (hrun : insertCard row hkey db = .ok newId db')
    (htarget : db.column? (row db.cards.nextKey).columnId = some target)
    (hboard : (row db.cards.nextKey).boardId = target.boardId) : StaysBounded db db' := by
  intro h
  rw [(insertCard_ok.mp hrun).1]
  exact bounded_insertCard h fun l hl hid => hboard.trans (boardId_of_column? htarget hl hid).symm

/-- A card rewritten into a column of its board. -/
theorem staysBounded_rewritten {card : Card} {target : Column} (hcard : db.card? id = some card)
    (htarget : db.column? column = some target)
    {f : Card → Card} {hkey} (hcolumn : ∀ c, (f c).columnId = column)
    (hboard : (f card).boardId = target.boardId) {n : Nat}
    (hrun : updateCards (fun c => c.id == id) f hkey db = .ok n db') : StaysBounded db db' := by
  refine staysBounded_updateCards hrun fun c hc hid l hl hl' => ?_
  have hfind : db.cards.find? id = some c := Table.find?_eq_some.mpr ⟨hc, beq_iff_eq.mp hid⟩
  obtain rfl := Option.some.inj (hfind.symm.trans hcard)
  exact hboard.trans (boardId_of_column? htarget hl ((hcolumn c).symm.trans hl')).symm

/-- What follows the rewriting in every move. -/
theorem keeps_borders_closing (from' column : Int) (position : Option Int) :
    KeepsTables Tables.borders (do
    placeCardInColumnTx id column position
    if from' ≠ column then renumberColumnCardsTx from' else pure ()) :=
  (keeps_borders_placeCardInColumnTx _ _).bind fun _ => respects_ite
    (fun _ => keeps_positions_renumberColumnCardsTx positionBlind_borders _) fun _ =>
      respects_pure ()

theorem staysBounded_moveCard (id column : Int) (position : Option Int) :
    Respects StaysBounded (moveCard conn id column position) := by
  refine (readOnly_requireCard id).bind_respects fun db card hcard =>
    (readOnly_requireColumn column).bind_at fun target htarget => ?_
  refine (readOnly_refuse _ _).bind_at fun _ hboard => ?_
  simp only [requireCard_ok, requireColumn_ok, refuse_ok, not_not, and_true] at hcard htarget hboard
  refine bind_at (staysBounded_transaction fun _ moved hrun => ?_) fun _ moved _ =>
    (readOnly_requireCard id).respects moved
  obtain ⟨_, updated, hupdated, hrest⟩ := bind_ok.mp hrun
  exact trans_of StaysBounded
    (staysBounded_rewritten hcard htarget (by intro c; rfl) hboard.symm hupdated)
    ((staysBounded_of_keeps (keeps_borders_closing _ _ _)).ok hrest)

theorem staysBounded_moveCardAndEnqueueUow (column : Int) (position : Option Int)
    (run : EnqueueRun) :
    Respects StaysBounded (moveCardAndEnqueueUow conn id column position run) := by
  refine (readOnly_requireCard id).bind_respects fun db card hcard =>
    (readOnly_requireColumn column).bind_at fun target htarget => ?_
  refine (readOnly_refuse _ _).bind_at fun _ hboard => (readOnly_refuse _ _).bind_at fun _ _ =>
    readOnly_get.bind_at fun _ _ => ?_
  simp only [requireCard_ok, requireColumn_ok, refuse_ok, not_not, and_true] at hcard htarget hboard
  refine (readOnly_refuse _ _).bind_at fun _ _ => ?_
  refine bind_at (staysBounded_transaction fun _ moved hrun => ?_) fun runId moved _ => ?_
  · obtain ⟨_, updated, hupdated, hrest⟩ := bind_ok.mp hrun
    refine trans_of StaysBounded
      (staysBounded_rewritten hcard htarget (by intro c; rfl) hboard.symm hupdated)
      ((staysBounded_of_keeps ?_).ok hrest)
    refine (keeps_borders_placeCardInColumnTx _ _).bind fun _ => ?_
    refine respects_ite (fun _ => ?_) fun _ => keeps_borders_enqueueRunTx _ _
    exact (keeps_positions_renumberColumnCardsTx positionBlind_borders _).bind fun _ =>
      keeps_borders_enqueueRunTx _ _
  · exact ((readOnly_requireCard id).respects.bind fun _ => (readOnly_getRun _).respects.bind
      fun _ => respects_pure _) moved

theorem staysBounded_transferCard (board column : Int) (position : Option Int) :
    Respects StaysBounded (transferCard conn id board column position) := by
  intro db
  refine bind_at (staysBounded_transaction fun _ moved hrun => ?_) fun _ moved _ =>
    (readOnly_requireCard id).respects moved
  simp only [bind_ok, requireCard_ok, getBoard_ok, requireColumn_ok, refuse_ok, not_not] at hrun
  obtain ⟨card, _, ⟨hcard, rfl⟩, _, _, ⟨-, rfl⟩, target, _, ⟨htarget, rfl⟩, _, _, ⟨hboard, rfl⟩, _,
    updated, hupdated, _, placed, hplaced, hclosed⟩ := hrun
  refine trans_of StaysBounded
    (staysBounded_rewritten hcard htarget (by intro c; rfl) hboard.symm hupdated) ?_
  refine trans_of StaysBounded
    ((staysBounded_of_keeps (keeps_borders_placeCardInColumnTx _ _)).ok hplaced) ?_
  exact (staysBounded_of_keeps (keeps_positions_renumberColumnCardsTx positionBlind_borders _)).ok
    hclosed

theorem staysBounded_transferCardAndEnqueueUow (board column : Int) (position : Option Int)
    (run : EnqueueRun) :
    Respects StaysBounded (transferCardAndEnqueueUow conn id board column position run) := by
  refine (readOnly_requireCard id).bind_respects fun db card hcard =>
    (readOnly_getBoard board).bind_at fun _ _ => ?_
  refine (readOnly_requireColumn column).bind_at fun target htarget =>
    (readOnly_refuse _ _).bind_at fun _ hboard => ?_
  refine (readOnly_refuse _ _).bind_at fun _ _ => readOnly_get.bind_at fun _ _ =>
    (readOnly_refuse _ _).bind_at fun _ _ => ?_
  simp only [requireCard_ok, requireColumn_ok, refuse_ok, not_not, and_true] at hcard htarget hboard
  refine bind_at (staysBounded_transaction fun _ moved hrun => ?_) fun runId moved _ => ?_
  · obtain ⟨_, updated, hupdated, hrest⟩ := bind_ok.mp hrun
    refine trans_of StaysBounded
      (staysBounded_rewritten hcard htarget (by intro c; rfl) hboard.symm hupdated)
      ((staysBounded_of_keeps ?_).ok hrest)
    refine (keeps_borders_placeCardInColumnTx _ _).bind fun _ => ?_
    exact (keeps_positions_renumberColumnCardsTx positionBlind_borders _).bind fun _ =>
      keeps_borders_enqueueRunTx _ _
  · exact ((readOnly_requireCard id).respects.bind fun _ => (readOnly_getRun _).respects.bind
      fun _ => respects_pure _) moved

theorem staysBounded_createCard (p : CardCreateParams) :
    Respects StaysBounded (createCard conn p) := by
  rw [createCard_eq]
  refine (readOnly_getBoard _).respects.bind fun _ =>
    (readOnly_chooseColumn p).respects.bind fun columnId => ?_
  refine (readOnly_requireColumn columnId).bind_respects fun db target htarget =>
    (readOnly_refuse _ _).bind_at fun _ hboard => ?_
  simp only [requireColumn_ok, refuse_ok, not_not, and_true] at htarget hboard
  refine readOnly_get.bind_at fun _ hget => ?_
  obtain ⟨rfl, -⟩ := get_ok.mp hget
  refine bind_at (insertCard_atomic.at fun _ _ hrun => staysBounded_insertCard hrun htarget
    hboard.symm) fun newId inserted _ => ?_
  cases p.position with
  | some position => exact ((staysBounded_moveCard newId columnId _).bind fun _ =>
      (readOnly_requireCard newId).respects) inserted
  | none => exact (readOnly_requireCard newId).respects inserted

theorem staysBounded_createCardAndEnqueueUow (p : CardCreateParams) (run : EnqueueRun) :
    Respects StaysBounded (createCardAndEnqueueUow conn p run) := by
  refine (readOnly_getBoard _).respects.bind fun _ =>
    (readOnly_defaultColumnId _).respects.bind fun default => ?_
  refine (readOnly_requireColumn _).bind_respects fun db target htarget =>
    (readOnly_refuse _ _).bind_at fun _ hboard => ?_
  simp only [requireColumn_ok, refuse_ok, not_not, and_true] at htarget hboard
  refine (readOnly_refuse _ _).bind_at fun _ _ => readOnly_get.bind_at fun _ hget => ?_
  obtain ⟨rfl, -⟩ := get_ok.mp hget
  refine bind_at (staysBounded_transaction fun _ moved hrun => ?_) fun ids moved _ => ?_
  · obtain ⟨cardId, inserted, hinserted, hrest⟩ := bind_ok.mp hrun
    refine trans_of StaysBounded (staysBounded_insertCard hinserted htarget hboard.symm)
      ((staysBounded_of_keeps ?_).ok hrest)
    have hqueued : KeepsTables Tables.borders (do
        let runId ← enqueueRunTx conn cardId run
        pure (cardId, runId)) := (keeps_borders_enqueueRunTx _ _).bind fun _ => respects_pure _
    exact respects_ite (fun _ => (keeps_borders_placeCardInColumnTx _ _).bind fun _ => hqueued)
      fun _ => hqueued
  · exact ((readOnly_requireCard _).respects.bind fun _ => (readOnly_getRun _).respects.bind
      fun _ => respects_pure _) moved

/-- A copy stands where its card stands. -/
theorem staysBounded_duplicateCard : Respects StaysBounded (duplicateCard conn id) := by
  refine (readOnly_requireCard id).bind_respects fun db card hcard => ?_
  have hcard := (requireCard_ok.mp hcard).1
  refine bind_at (staysBounded_transaction fun _ placed hrun h => ?_) fun _ placed _ =>
    (readOnly_requireCard _).respects placed
  simp only [bind_ok, get_ok, pure_ok] at hrun
  obtain ⟨_, _, ⟨rfl, rfl⟩, copyId, inserted, hinserted, _, _, hplaced, -, rfl⟩ := hrun
  refine (staysBounded_of_keeps (keeps_borders_placeCardInColumnTx _ _)).ok hplaced ?_
  rw [(insertCard_ok.mp hinserted).1]
  exact bounded_insertCard h fun l hl hid => h.cards card (Table.mem_of_find? hcard) l hl hid

theorem staysBounded_deleteCard : Respects StaysBounded (deleteCard id) := by
  refine (readOnly_requireCard id).bind_respects fun db card _ => bind_at ?_ fun _ deleted _ => ?_
  · exact staysBounded_exec fun h => ⟨h.cards.delete _, h.columns⟩
  · exact staysBounded_of_keeps
      (keeps_positions_renumberColumnCardsTx positionBlind_borders _).transaction deleted

end HerdrBoard.Editing
