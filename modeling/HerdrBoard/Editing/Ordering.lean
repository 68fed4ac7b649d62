import HerdrBoard.Core.Lemmas.Sites
import HerdrBoard.Editing.Arranging

/-!
# Ordering columns

What each call does to the order of the columns on every board, and where the cards of a
deleted column go. -/

open Lib HerdrBoard.Core HerdrBoard.Daemon HerdrBoard.Lifecycle

namespace HerdrBoard.Editing

variable {conn : Conn} {db db' : Db} {o : Orders} {id : Int}

/-! ## Columns -/

/-- The orders with a column put on a board. -/
def Orders.putColumn (o : Orders) (id board : Int) (position : Option Int) : Orders :=
  { o with columns := o.columns.put id board position }

theorem keeps_places_updateColumns {p : Column → Bool} {f : Column → Column} {hkey}
    (hboard : ∀ c, (f c).boardId = c.boardId) (hposition : ∀ c, (f c).position = c.position) :
    KeepsTables Tables.places (updateColumns p f hkey) := by
  refine keeps_exec fun t => ?_
  have hcolumns : (t.columns.update p f hkey).places = t.columns.places :=
    Table.places_update hboard hposition
  simp only [Tables.places, hcolumns]

theorem insertColumn_ordered (h : Ordered o db) {row : Int → Column} {hkey} {board : Int}
    (hboard : (row db.columns.nextKey).boardId = board)
    (hposition : (row db.columns.nextKey).position = db.columns.endPosition board)
    (hrun : insertColumn row hkey db = .ok id db') :
    Ordered (o.putColumn id board none) db' ∧ id = db.columns.nextKey ∧
    db'.column? id = some (row id) := by
  obtain ⟨htables, rfl⟩ := insertColumn_ok.mp hrun
  refine ⟨⟨?_, ?_⟩, rfl, ?_⟩
  · rw [htables]
    exact h.cards
  · rw [htables]
    exact @arranges_insert Column _ _ _ _ h.columns row hkey hboard hposition
  · rw [Db.column?, htables]
    simp [Table.find?_insert]

theorem reorderColumn_ordered {position : Int} {columns : List Column} (h : Ordered o db)
    (hrun : reorderColumn id position db = .ok columns db') :
    ∃ column, db.column? id = some column ∧
      Ordered (o.putColumn id column.boardId (some position)) db' := by
  simp only [reorderColumn, bind_ok, requireColumn_ok, transaction_ok, get_ok,
    setColumnPositions_ok, pure_ok] at hrun
  obtain ⟨column, _, ⟨hcolumn, rfl⟩, _, _, ⟨_, _, ⟨rfl, rfl⟩, htables⟩, _, _, ⟨rfl, rfl⟩, -, rfl⟩ :=
    hrun
  refine ⟨column, hcolumn, ?_⟩
  obtain ⟨hmem, rfl⟩ := Table.find?_eq_some.mp hcolumn
  refine ⟨?_, ?_⟩
  · rw [htables]
    exact h.cards
  · rw [htables]
    exact arranges_put_same h.columns hmem (some position)

theorem putColumn_putColumn {board board' : Int} {first position : Option Int} :
    (o.putColumn id board first).putColumn id board' position = o.putColumn id board' position := by
  simp only [Orders.putColumn, Arrangement.put_put]

theorem createColumn_ordered {p : ColumnCreateParams} {column : Column} (h : Ordered o db)
    (hrun : createColumn p db = .ok column db') :
    Ordered (o.putColumn db.columns.nextKey (p.boardId.getD BOARD_ID) p.position) db' := by
  simp only [createColumn, bind_ok, getBoard_ok, validateColumnTargets_ok, get_ok,
    rejectDuplicate_ok] at hrun
  obtain ⟨_, _, ⟨-, rfl⟩, _, _, ⟨-, -, rfl⟩, _, _, ⟨rfl, rfl⟩, _, inserted, hinserted, hplaced⟩ :=
    hrun
  obtain ⟨hend, rfl, hrow⟩ := insertColumn_ordered h rfl rfl hinserted
  cases hposition : p.position with
  | none =>
      rw [hposition] at hplaced
      obtain ⟨-, rfl⟩ := requireColumn_ok.mp hplaced
      exact hend
  | some position =>
      rw [hposition] at hplaced
      obtain ⟨_, _, hmoved, hread⟩ := bind_ok.mp hplaced
      obtain ⟨-, rfl⟩ := requireColumn_ok.mp hread
      obtain ⟨found, hfound, hthere⟩ := reorderColumn_ordered hend hmoved
      obtain rfl := Option.some.inj (hrow.symm.trans hfound)
      rwa [putColumn_putColumn] at hthere

/-- The orders after a column has been given a position, if it has. -/
def Orders.reposition (o : Orders) (id board : Int) : Option Int → Orders
  | some position => o.putColumn id board (some position)
  | none => o

theorem updateColumn_ordered {p : ColumnUpdateParams} {column : Column} (h : Ordered o db)
    (hrun : updateColumn p db = .ok column db') :
    ∃ old, db.column? p.id = some old ∧ Ordered (o.reposition p.id old.boardId p.position) db' := by
  simp only [updateColumn, bind_ok, requireColumn_ok, validateColumnTargets_ok, rejectDuplicate_ok]
    at hrun
  obtain ⟨old, _, ⟨hold, rfl⟩, _, _, ⟨-, -, rfl⟩, _, updated, hupdated, hplaced⟩ := hrun
  have hid : (patchColumn p old).id = p.id := Table.key_of_find? hold
  rw [hid] at hupdated hplaced
  have hsame := h.keeps (keeps_places_updateColumns (by intro c; rfl) (by intro c; rfl)) hupdated
  refine ⟨old, hold, ?_⟩
  cases hposition : p.position with
  | none =>
      rw [hposition] at hplaced
      obtain ⟨-, rfl⟩ := requireColumn_ok.mp hplaced
      exact hsame
  | some position =>
      rw [hposition] at hplaced
      obtain ⟨_, _, hmoved, hread⟩ := bind_ok.mp hplaced
      obtain ⟨-, rfl⟩ := requireColumn_ok.mp hread
      obtain ⟨found, hfound, hthere⟩ := reorderColumn_ordered hsame hmoved
      have hboard : found.boardId = old.boardId := by
        rw [Db.column?, updateColumns_ok.mp hupdated, Table.find?_update] at hfound
        have hold : db.columns.find? p.id = some old := hold
        rw [hold] at hfound
        obtain rfl := Option.some.inj hfound
        dsimp only
        split <;> rfl
      rwa [hboard] at hthere

/-! ## Deleting a column -/

/-- The orders without a column, whose cards are appended to another one. -/
def Orders.dropColumn (o : Orders) (id : Int) (dst : Option Int) : Orders where
  cards := match dst with
    | some dst => o.cards.merge id dst
    | none => o.cards
  columns := o.columns.remove id

/-- A column is not its own destination unless it is empty. -/
theorem Rehoused.empty_of_self {t t' : Table Card} (h : Rehoused id (some id) t t') :
    t.slots id = [] := by
  refine slots_eq_nil.mpr fun c hc hcolumn => ?_
  have hleft := slots_eq_nil.mp h.left
  have hthere : Editing.bare c ∈ t'.map Editing.bare := h.bare ▸ Table.mem_map.mpr ⟨c, hc, rfl⟩
  obtain ⟨c', hc', heq⟩ := Table.mem_map.mp hthere
  have hkey : (Editing.bare c').id = (Editing.bare c).id := congrArg Card.id heq
  have hstayed : c' ∈ t :=
    (h.rest c' (hleft c' hc') fun hdst => hleft c' hc' (Option.some.inj hdst).symm).mp hc'
  have hsame : c' = c := Table.eq_of_key_eq hstayed hc hkey
  exact hleft c' hc' (hsame ▸ hcolumn)

theorem Rehoused.arranges {dst : Option Int} {t t' : Table Card} (h : Rehoused id dst t t')
    (hA : t.Arranges o.cards) : t'.Arranges (o.dropColumn id dst).cards := by
  cases dst with
  | none => exact h.idle (h.nowhere rfl) ▸ hA
  | some dst =>
      by_cases hself : dst = id
      · subst hself
        have hempty := h.empty_of_self
        have hmerge : o.cards.merge dst dst = o.cards := by
          funext g
          by_cases hg : g = dst
          · simp only [Arrangement.merge, hg, ↓reduceIte]
            rw [← (hA dst).slots_eq, hempty]
          · simp only [Arrangement.merge, hg, ↓reduceIte]
        show t'.Arranges (o.cards.merge dst dst)
        rw [hmerge, h.idle hempty]
        exact hA
      · intro g
        by_cases hg : g = id
        · subst hg
          simp only [Orders.dropColumn, Arrangement.merge, ↓reduceIte]
          have hnone := slots_eq_nil.mp h.left
          exact ⟨List.nodup_nil, fun r hr hgroup => absurd hgroup (hnone r hr),
            fun k hk => absurd hk List.not_mem_nil⟩
        · by_cases hdst : g = dst
          · subst hdst
            have hdense := h.dense g rfl (.inr ((hA g).slots_eq.symm ▸ hA g))
            rw [h.follow g rfl hself, (hA g).slots_eq, (hA id).slots_eq] at hdense
            simpa only [Orders.dropColumn, Arrangement.merge, hg, ↓reduceIte] using hdense
          · simp only [Orders.dropColumn, Arrangement.merge, hg, hdst, ↓reduceIte]
            refine (hA g).congr fun r hr => ?_
            have hcolumn : r.columnId = g := hr
            refine h.rest r (hcolumn.trans_ne hg) fun heq => hdst ?_
            exact hcolumn.symm.trans (Option.some.inj heq).symm

theorem deleteColumn_ordered {dst : Option Int} {u : Unit} (h : Ordered o db)
    (hrun : deleteColumn conn id dst db = .ok u db') : Ordered (o.dropColumn id dst) db' := by
  obtain ⟨column, gone, hcolumn, hrehoused, hgone, hclosed⟩ := deleteColumn_steps hrun
  obtain ⟨hmem, rfl⟩ := Table.find?_eq_some.mp hcolumn
  refine ⟨?_, ?_⟩
  · rw [hclosed]
    exact hrehoused.arranges h.cards
  · have hplaces : (db.columns.update (fun _ => true) (released column.id)).places =
        db.columns.places :=
      Table.places_update (fun _ => rfl) fun _ => rfl
    have hreleased := h.columns.of_places hplaces
    have hdeleted := hreleased.delete ((h.columns _).mem_iff.mpr ⟨column, hmem, rfl, rfl⟩)
    have hcolumns : gone.columns =
        (db.columns.update (fun _ => true) (released column.id)).delete fun c =>
          Keyed.key c == Keyed.key column := by
      rw [hgone]
      exact Table.update_delete fun _ => rfl
    rw [hclosed]
    show (gone.columns.renumber (gone.columns.slots column.boardId)).Arranges _
    rw [hcolumns]
    exact hdeleted.compact

/-! ## Templates -/

/-- The orders with columns appended to a board. -/
def Orders.appendColumns (o : Orders) (board : Int) (ids : List Int) : Orders :=
  { o with columns := o.columns.append board ids }

/-- The ids of the next `n` columns. -/
def nextColumns (db : Db) (n : Nat) : List Int :=
  (List.range n).map fun i : Nat => db.columns.nextKey + i

theorem nextColumns_succ {n : Nat} (hnext : db'.columns.nextKey = db.columns.nextKey + 1) :
    nextColumns db (n + 1) = db.columns.nextKey :: nextColumns db' n := by
  simp only [nextColumns, List.range_succ_eq_map, List.map_cons, List.map_map, hnext]
  refine List.cons_eq_cons.mpr ⟨by simp, List.map_congr_left fun i _ => ?_⟩
  simp only [Function.comp_apply]
  omega

theorem putColumn_new (h : Ordered o db) (board : Int) :
    o.putColumn db.columns.nextKey board none = o.appendColumns board [db.columns.nextKey] := by
  have hnew (g : Int) : db.columns.nextKey ∉ o.columns g := by
    intro hk
    obtain ⟨r, hr, -, hkr⟩ := (h.columns g).present _ hk
    exact (Table.lt_nextKey hr).ne hkr
  simp only [Orders.putColumn, Orders.appendColumns, Arrangement.put_none hnew]

theorem insertTemplateColumns_ordered {board : Int} {specs : List ColumnCreateParams}
    {ids : List Int} (h : Ordered o db)
    (hrun : insertTemplateColumns board specs db = .ok ids db') :
    Ordered (o.appendColumns board (nextColumns db specs.length)) db' := by
  induction specs generalizing db o ids with
  | nil =>
      obtain ⟨-, rfl⟩ := pure_ok.mp hrun
      simpa only [Orders.appendColumns, nextColumns, List.length_nil, List.range_zero, List.map_nil,
        Arrangement.append_nil] using h
  | cons spec specs ih =>
      simp only [insertTemplateColumns, bind_ok, get_ok, rejectDuplicate_ok, pure_ok] at hrun
      obtain ⟨_, _, ⟨rfl, rfl⟩, _, inserted, hinserted, _, _, hrest, -, rfl⟩ := hrun
      have hnext : inserted.columns.nextKey = db.columns.nextKey + 1 := by
        rw [(insertColumn_ok.mp hinserted).1]
        exact @Table.nextKey_insert _ _ db.columns _ (fun _ => rfl)
      obtain ⟨hend, rfl, -⟩ := @insertColumn_ordered _ _ _ _ h _ _ board rfl rfl hinserted
      have hdone := ih hend hrest
      rw [putColumn_new h] at hdone
      rw [List.length_cons, nextColumns_succ hnext]
      simpa only [Orders.appendColumns, Arrangement.append_append, List.singleton_append]
        using hdone

theorem keeps_places_wireColumns (board : Int) (ids : List Int) (wiring : List ColumnWiring) :
    KeepsTables Tables.places (wireColumns board ids wiring) := by
  induction wiring with
  | nil => exact respects_pure ()
  | cons wire wiring ih =>
      refine (readOnly_okOr _ _).respects.bind fun columnId => ?_
      refine (readOnly_resolveTarget board ids _).respects.bind fun _ => ?_
      refine (readOnly_resolveTarget board ids _).respects.bind fun _ => ?_
      exact Respects.bind (keeps_places_updateColumns (by intro c; rfl) (by intro c; rfl)) fun _ =>
        ih

theorem applyTemplateColumnsUow_ordered {board : Int} {specs : List ColumnCreateParams}
    {wiring : List ColumnWiring} {columns : List Column} (h : Ordered o db)
    (hrun : applyTemplateColumnsUow board specs wiring db = .ok columns db') :
    Ordered (o.appendColumns board (nextColumns db specs.length)) db' := by
  simp only [applyTemplateColumnsUow, bind_ok, getBoard_ok, transaction_ok, get_ok, pure_ok] at hrun
  obtain ⟨_, _, ⟨-, rfl⟩, _, _, hcheck, _, wired, ⟨_, inserted, hinserted, hwired⟩, _, _, ⟨rfl,
    rfl⟩, -, rfl⟩ := hrun
  cases (readOnly_checkTemplateSpecs _ _).ok hcheck
  exact (insertTemplateColumns_ordered h hinserted).keeps (keeps_places_wireColumns _ _ _) hwired

/-! ## Boards and projects -/

/-- What a seeding reads: the columns, the cards, and the next board. -/
def Tables.yard (t : Tables) : Table Card × Table Column × Table Board :=
  (t.cards, t.columns, t.boards)

theorem Ordered.of_yard (h : Ordered o db)
    (hyard : Tables.yard db'.toTables = Tables.yard db.toTables) : Ordered o db' := by
  refine h.of_places ?_
  have hcards : db'.cards = db.cards := congrArg Prod.fst hyard
  have hcolumns : db'.columns = db.columns := congrArg (fun y => y.2.1) hyard
  simp only [Tables.places, hcards, hcolumns]

/-- The orders with the first column of a new board. -/
def Orders.seed (o : Orders) (db : Db) : Orders :=
  o.putColumn db.columns.nextKey db.boards.nextKey none

/-- A new board gets its first column. -/
theorem insertBoard_ordered (h : Ordered o db) {row : Int → Board} {hkey} {boardId : Int} {u : Unit}
    {inserted : Db} (hinserted : insertBoard row hkey db = .ok boardId inserted)
    (hseed : seedTodoTx boardId inserted = .ok u db') : Ordered (o.seed db) db' := by
  simp only [insertBoard, bind_ok, get_ok, exec_ok, pure_ok] at hinserted
  obtain ⟨_, _, ⟨rfl, rfl⟩, _, inserted, htables, rfl, rfl⟩ := hinserted
  have hcolumns : inserted.columns = db.columns := by rw [htables]
  have hempty : ∀ c ∈ inserted.columns, c.boardId ≠ db.boards.nextKey := by
    intro c hc hboard
    rw [hcolumns] at hc
    obtain ⟨b, hb, hid⟩ := Db.column_board hc
    exact (Table.lt_nextKey hb).ne (hid.trans hboard)
  have hsame : Ordered o inserted := by
    refine h.of_places ?_
    rw [htables]
    rfl
  have hend : inserted.columns.endPosition db.boards.nextKey = 0 := by
    have hslots : o.columns db.boards.nextKey = [] := by
      refine List.eq_nil_iff_forall_not_mem.mpr fun k hk => ?_
      obtain ⟨c, hc, hboard, -⟩ := (hsame.columns _).present k hk
      exact hempty c hc hboard
    rw [(hsame.columns _).endPosition_eq, hslots]
    rfl
  have hnone : (inserted.columns.select fun c => c.boardId == db.boards.nextKey).isEmpty =
      true := by
    rw [List.isEmpty_iff, List.eq_nil_iff_forall_not_mem]
    intro c hc
    obtain ⟨hmem, hboard⟩ := Table.mem_select.mp hc
    exact hempty c hmem (beq_iff_eq.mp hboard)
  simp only [seedTodoTx, bind_ok, get_ok, ite_ok, pure_ok] at hseed
  obtain ⟨_, _, ⟨rfl, rfl⟩, ⟨-, _, _, hcolumn, -, rfl⟩ | ⟨hnot, -⟩⟩ := hseed
  · obtain ⟨hdone, rfl, -⟩ := insertColumn_ordered hsame rfl hend.symm hcolumn
    rw [hcolumns] at hdone
    exact hdone
  · exact absurd hnone hnot

theorem insertProjectWithBoard_ordered {insertRow : StoreM Int} {ids : Int × Int} (h : Ordered o db)
    (hkeeps : KeepsTables Tables.yard insertRow)
    (hrun : insertProjectWithBoard insertRow db = .ok ids db') :
    Ordered (o.seed db) db' := by
  simp only [insertProjectWithBoard, bind_ok, pure_ok] at hrun
  obtain ⟨_, added, hadded, _, inserted, hinserted, _, _, hseed, -, rfl⟩ := hrun
  have hyard : Tables.yard added.toTables = Tables.yard db.toTables := hkeeps.ok hadded
  have hdone := insertBoard_ordered (h.of_yard hyard) hinserted hseed
  have hboards : added.boards = db.boards := congrArg (fun y => y.2.2) hyard
  have hcolumns : added.columns = db.columns := congrArg (fun y => y.2.1) hyard
  rwa [Orders.seed, hboards, hcolumns] at hdone

theorem keeps_yard_insertProjectRow (scopePath : String) :
    KeepsTables Tables.yard (insertProjectRow scopePath) :=
  keeps_execBetween fun _ => rfl

end HerdrBoard.Editing
