import HerdrBoard.Core.Lemmas.Success
import HerdrBoard.Editing.Merging

/-!
# Deleting a column

A deleted column leaves its cards at the end of the destination and no transition into it; a refused
deletion leaves the store as it was. -/

open Lib HerdrBoard.Core HerdrBoard.Daemon HerdrBoard.Lifecycle

namespace HerdrBoard.Editing

variable {conn : Conn} {env : Env} {db db' : Db} {d d' : DaemonState} {t t' t'' : Table Card}
  {dst x : Int} {dst? : Option Int} {cards : List Int}

/-! ## Appending cards to a column -/

/-- A card without its place and its stamp. -/
def bare (c : Card) : Card := { c with columnId := 0, position := 0, updatedAt := "" }

/-- The cards have been appended to the column, in their order. -/
structure Appended (dst : Int) (cards : List Int) (t t' : Table Card) : Prop where
  slots : t'.slots dst = t.slots dst ++ cards
  dense : cards ≠ [] ∨ Table.Arranged t dst (t.slots dst) →
    Table.Arranged t' dst (t.slots dst ++ cards)
  rest : ∀ r : Card, r.columnId ≠ dst → (r ∈ t' ↔ r ∈ t ∧ r.id ∉ cards)
  bare : t'.map bare = t.map bare

theorem Appended.nil : Appended dst [] t t where
  slots := (List.append_nil _).symm
  dense h := by
    rw [List.append_nil]
    exact h.resolve_left fun h => h rfl
  rest r _ := by simp
  bare := rfl

theorem Appended.cons (h : Appended dst [x] t t') (h' : Appended dst cards t' t'') :
    Appended dst (x :: cards) t t'' where
  slots := by rw [h'.slots, h.slots, List.append_assoc, List.singleton_append]
  dense _ := by
    have hdense := h.dense (.inl (List.cons_ne_nil x []))
    have hlast := h'.dense (.inr (h.slots ▸ hdense))
    rwa [h.slots, List.append_assoc, List.singleton_append] at hlast
  rest r hr := by
    rw [h'.rest r hr, h.rest r hr]
    simp [and_assoc]
  bare := h'.bare.trans h.bare

/-- The card as `delete_column` moves it. -/
def movedTo (conn : Conn) (dst : Int) (c : Card) : Card :=
  { c with columnId := dst, updatedAt := conn.now }

theorem movedRow_movedTo (conn : Conn) (dst : Int) (hx : ∃ r ∈ t, r.id = x) :
    Table.MovedRow t (t.update (fun c => c.id == x) (movedTo conn dst)) x dst :=
  Table.movedRow_update hx fun _ => rfl

/-- One card moved to the end of a column it was not in. -/
theorem appended_one (conn : Conn) {r : Card} (hr : r ∈ t) (hother : r.columnId ≠ dst) :
    Appended dst [r.id] t
      ((t.update (fun c => c.id == r.id) (movedTo conn dst)).renumber (t.slots dst ++ [r.id])) := by
  have hx : r.id ∉ t.slots dst := by
    intro hin
    obtain ⟨r', hr', hg, hk⟩ := Table.mem_slots.mp hin
    exact hother (Table.eq_of_key_eq hr' hr hk ▸ hg)
  have hmoved := movedRow_movedTo conn dst ⟨r, hr, rfl⟩
  obtain ⟨-, hat⟩ := hmoved.appended hx
  refine ⟨hat.slots_eq, fun _ => hat, fun s hs => ?_, ?_⟩
  · have hnd : (t.slots dst ++ [r.id]).Nodup := hat.nodup
    have hmem : ∀ k ∈ t.slots dst ++ [r.id],
        ∃ s ∈ t.update (fun c => c.id == r.id) (movedTo conn dst),
        Placed.group s = dst ∧ Keyed.key s = k := by
      intro k hk
      obtain ⟨s, hs, hg, rfl⟩ := hat.present k hk
      obtain ⟨s₀, hs₀, rfl⟩ := (Table.mem_renumber hnd).mp hs
      refine ⟨s₀, hs₀, ?_, ?_⟩
      · split at hg <;> simpa using hg
      · split <;> simp
    rw [Table.mem_renumber_of_group_ne hnd hmem hs, List.mem_singleton]
    constructor
    · intro hin
      have hne : s.id ≠ r.id := fun heq => hs (hmoved.group_of_mem hin heq)
      exact ⟨(hmoved.same s hne).mp hin, hne⟩
    · rintro ⟨hin, hne⟩
      exact (hmoved.same s hne).mpr hin
  · rw [Table.map_renumber fun _ _ => rfl]
    exact Table.map_update_self fun _ => rfl

theorem succeeds_moveCardsTo (conn : Conn) (hdst : db.hasColumn dst = true) (hnodup : cards.Nodup)
    (hcards : ∀ k ∈ cards, ∃ r ∈ db.cards, r.id = k ∧ r.columnId ≠ dst) :
    Succeeds (moveCardsTo conn dst cards) db fun _ db' => Appended dst cards db.cards db'.cards ∧
      db'.toTables = { db.toTables with cards := db'.cards } := by
  induction cards generalizing db with
  | nil => exact succeeds_pure ⟨.nil, rfl⟩
  | cons cid cids ih =>
      obtain ⟨r, hr, rfl, hother⟩ := hcards cid List.mem_cons_self
      obtain ⟨hfresh, hnodup⟩ := List.nodup_cons.mp hnodup
      have happended := appended_one conn hr hother
      have hothers : (db.cards.update (fun c => c.id == r.id) (movedTo conn dst)).others dst r.id =
          db.cards.slots dst := by
        refine ((movedRow_movedTo conn dst ⟨r, hr, rfl⟩).appended fun hin => ?_).1
        obtain ⟨r', hr', hg, hk⟩ := Table.mem_slots.mp hin
        exact hother (Table.eq_of_key_eq hr' hr hk ▸ hg)
      refine (succeeds_updateCards (by intro c hc _; exact @hasBoard_of_mem db c hc)
        (by intro c _ _; exact hdst)
        (by intro c hc _; exact @Db.awaiting_iff db c hc)).bind fun _ moved _ hmoved => ?_
      obtain ⟨_, placed, hrun⟩ := setCardPositions_total (db.cards.slots dst ++ [r.id]) moved
      have hplaced := setCardPositions_ok.mp hrun
      have hplace : placeCardInColumnTx r.id dst none moved = .ok () placed := by
        have hids : moved.cards.others dst r.id = db.cards.slots dst := by
          rw [hmoved]
          exact hothers
        show setCardPositions _ moved = _
        rw [hids, clampIndex, Option.map_none, Option.getD_none, Nat.min_self,
          List.insertIdx_length_self]
        exact hrun
      refine succeeds_bind_run hplace ?_
      have hcards₁ : placed.cards =
          (db.cards.update (fun c => c.id == r.id) (movedTo conn dst)).renumber
          (db.cards.slots dst ++ [r.id]) := by
        rw [hplaced, hmoved]
        rfl
      have htables : placed.toTables = { db.toTables with cards := placed.cards } := by
        rw [hplaced, hmoved]
      rw [← hcards₁] at happended
      have hthere : placed.hasColumn dst = true := by
        rw [htables]
        exact hdst
      refine (ih hthere hnodup fun k hk => ?_).mono fun _ db' _ h => ?_
      · obtain ⟨s, hs, rfl, hg⟩ := hcards k (List.mem_cons_of_mem _ hk)
        refine ⟨s, (happended.rest s hg).mpr ⟨hs, fun hin => hfresh ?_⟩, rfl, hg⟩
        rwa [List.mem_singleton.mp hin] at hk
      · refine ⟨happended.cons h.1, h.2.trans ?_⟩
        rw [htables]

/-- Cards moved to the column they are in do not leave it. -/
theorem stays_moveCardsTo (hrun : moveCardsTo conn dst cards db = .ok () db')
    (h : ∃ c ∈ db.cards, c.columnId = dst) : ∃ c ∈ db'.cards, c.columnId = dst := by
  induction cards generalizing db with
  | nil =>
      obtain ⟨-, rfl⟩ := pure_ok.mp hrun
      exact h
  | cons cid cids ih =>
      simp only [moveCardsTo, placeCardInColumnTx, bind_ok, updateCards_ok, get_ok,
        setCardPositions_ok] at hrun
      obtain ⟨_, moved, ⟨hmoved, -⟩, _, placed, ⟨_, _, ⟨rfl, rfl⟩, hplaced⟩, hrest⟩ := hrun
      refine ih hrest ?_
      obtain ⟨c, hc, hcolumn⟩ := h
      have hplaces : placed.cards.map (Placed.setPosition 0) (Placed.key_setPosition _) =
          (db.cards.update (fun c => c.id == cid) (movedTo conn dst)).map (Placed.setPosition 0)
          (Placed.key_setPosition _) := by
        rw [hplaced, hmoved]
        exact Table.map_renumber (g := Placed.setPosition 0) (fun _ _ => rfl) _
      have hthere : Placed.setPosition 0 (if c.id == cid then movedTo conn dst c else c) ∈
          placed.cards.map (Placed.setPosition 0) (Placed.key_setPosition _) := by
        rw [hplaces]
        exact Table.mem_map.mpr ⟨_, Table.mem_update.mpr ⟨c, hc, rfl⟩, rfl⟩
      obtain ⟨r, hr, heq⟩ := Table.mem_map.mp hthere
      have hgroup : r.columnId = (if c.id == cid then movedTo conn dst c else c).columnId := by
        have := congrArg Placed.group heq
        rwa [Placed.group_setPosition, Placed.group_setPosition] at this
      refine ⟨r, hr, hgroup.trans ?_⟩
      split
      · rfl
      · exact hcolumn

/-! ## The column row -/

/-- What `delete_column` does to a column that stays, apart from its place. -/
def released (id : Int) (c : Column) : Column :=
  { c with
    onSuccessColumnId := c.onSuccessColumnId.filter (· != id)
    onFailColumnId := c.onFailColumnId.filter (· != id) }

theorem violation_deleteColumn {t : Tables} {id : Int} (h : t.violation = none)
    (hcards : ∀ c ∈ t.cards, c.columnId ≠ id)
    (hruns : ∀ r ∈ t.runs, r.columnId ≠ id) : Tables.violation
      { t with columns := (t.columns.delete fun c => c.id == id).update (fun _ =>
          true) (released id) } = none := by
  obtain ⟨hcheck, hu, hf⟩ := Tables.violation_eq_none.mp h
  have hcolumn (k : Int) (hk : k ≠ id) : Tables.hasColumn
      { t with columns := (t.columns.delete fun c => c.id == id).update (fun _ =>
          true) (released id) } k = t.hasColumn k := by
    simp only [Tables.hasColumn, Table.find?_update, Table.find?_delete]
    cases hfound : t.columns.find? k with
    | none => rfl
    | some c =>
        have hid : c.id = k := Table.key_of_find? hfound
        simp [hid, hk]
  refine Tables.violation_eq_none.mpr ⟨hcheck, ?_, ?_⟩
  · obtain ⟨h1, h2, hnames, hrest⟩ := hu
    refine ⟨h1, h2, ?_, hrest⟩
    exact List.pairwise_map.mpr (hnames.sublist List.filter_sublist)
  · obtain ⟨h1, hcolumns, hrows, h4, h5, hrunRows, hrest⟩ := hf
    refine ⟨h1, ?_, fun c hc => ⟨(hrows c hc).1, ?_⟩, h4, h5,
      fun r hr => ⟨(hrunRows r hr).1, ?_⟩, hrest⟩
    · refine List.forall_mem_map.mpr fun c hc => ?_
      obtain ⟨hboard, hsuccess, hfail⟩ := hcolumns c (List.mem_of_mem_filter hc)
      have htarget (o : Option Int) (ho : o.all t.hasColumn = true) :
          (o.filter (· != id)).all (Tables.hasColumn
          { t with columns := (t.columns.delete fun c => c.id == id).update (fun _ =>
              true) (released id) }) = true := by
        cases o with
        | none => rfl
        | some k =>
            by_cases hk : k = id
            · simp [hk]
            · simpa [hk, hcolumn k hk] using ho
      exact ⟨hboard, htarget _ hsuccess, htarget _ hfail⟩
    · rw [hcolumn _ (hcards c hc)]
      exact (hrows c hc).2
    · rw [hcolumn _ (hruns r hr)]
      exact (hrunRows r hr).2

/-! ## What a deletion leaves -/

/-- Where the cards of the deleted column went. -/
structure Rehoused (id : Int) (dst : Option Int) (t t' : Table Card) : Prop where
  /-- No card is lost, duplicated or changed. -/
  bare : t'.map bare = t.map bare
  left : t'.slots id = []
  follow : ∀ d, dst = some d → d ≠ id → t'.slots d = t.slots d ++ t.slots id
  dense : ∀ d, dst = some d → t.slots id ≠ [] ∨ Table.Arranged t d (t.slots d) →
    Table.Arranged t' d (t'.slots d)
  nowhere : dst = none → t.slots id = []
  rest : ∀ c : Card, c.columnId ≠ id → dst ≠ some c.columnId → (c ∈ t' ↔ c ∈ t)
  idle : t.slots id = [] → t' = t

/-- What is left of the tables once `column` is gone. -/
structure Deleted (column : Column) (dst : Option Int) (t t' : Tables) : Prop where
  gone : t'.columns.find? column.id = none
  columns : t'.columns.rows.map unplaced =
    (t.columns.rows.filter fun c => c.id != column.id).map fun c => unplaced (released column.id c)
  order : Table.Arranged t'.columns column.boardId
    ((t.columns.slots column.boardId).filter (· != column.id))
  cards : Rehoused column.id dst t.cards t'.cards
  rest : t' = { t with columns := t'.columns, cards := t'.cards }

theorem slots_eq_nil {t : Table Card} {id : Int} : t.slots id = [] ↔ ∀ c ∈ t, c.columnId ≠ id := by
  rw [List.eq_nil_iff_forall_not_mem]
  constructor
  · intro h c hc hcolumn
    exact h c.id (Table.mem_slots.mpr ⟨c, hc, hcolumn, rfl⟩)
  · intro h k hk
    obtain ⟨c, hc, hcolumn, -⟩ := Table.mem_slots.mp hk
    exact h c hc hcolumn

/-- An empty column is deleted without touching a card. -/
theorem Rehoused.of_empty {id : Int} {dst : Option Int} {t : Table Card} (h : t.slots id = []) :
    Rehoused id dst t t where
  bare := rfl
  left := h
  follow d _ _ := by rw [h, List.append_nil]
  dense d _ hdense := hdense.resolve_left fun hne => hne h
  nowhere _ := h
  rest _ _ _ := Iff.rfl
  idle _ := rfl

theorem Appended.rehoused {id dst : Int} {t t' : Table Card} (hne : dst ≠ id)
    (h : Appended dst (t.slots id) t t')
    (hidle : t.slots id = [] → t' = t) : Rehoused id (some dst) t t' where
  bare := h.bare
  left := by
    refine slots_eq_nil.mpr fun c hc hcolumn => ?_
    have hin := (h.rest c (hcolumn.trans_ne hne.symm)).mp hc
    exact hin.2 (Table.mem_slots.mpr ⟨c, hin.1, hcolumn, rfl⟩)
  follow d hd _ := by
    cases hd
    exact h.slots
  dense d hd hdense := by
    cases hd
    rw [h.slots]
    exact h.dense hdense
  nowhere hnone := by cases hnone
  rest c hid hdst := by
    have hc := h.rest c fun heq => hdst (heq ▸ rfl)
    refine hc.trans ⟨And.left, fun hin => ⟨hin, fun hslot => hid ?_⟩⟩
    obtain ⟨r, hr, hg, hk⟩ := Table.mem_slots.mp hslot
    exact Table.eq_of_key_eq hr hin hk ▸ hg
  idle := hidle

/-! ## The unit of work -/

theorem checkDestination_ok {boardId : Int} {dst : Option Int} {u : Unit} :
    checkDestination boardId dst db = .ok u db' ↔
    (∀ k, dst = some k → ∃ c, db.column? k = some c ∧ c.boardId = boardId) ∧ db = db' := by
  cases dst with
  | none => simp [checkDestination]
  | some k =>
      simp [checkDestination]
      tauto

/-- The part of a deletion that moves cards. -/
def moveOut (conn : Conn) (dst : Option Int) (cards : List Int) : StoreM Unit :=
  match dst with
  | some dst => moveCardsTo conn dst cards
  | none => pure ()

/-- The part of a deletion that removes the row and compacts the board. -/
def takeOut (id boardId : Int) : StoreM Unit := do
  deleteColumnRow id
  let db ← get
  setColumnPositions (db.columns.slots boardId)

theorem deleteColumn_eq (conn : Conn) (id : Int) (dst : Option Int) : deleteColumn conn id dst = (do
    let column ← requireColumn id
    checkDestination column.boardId dst
    transaction do
      let db ← get
      moveOut conn dst (db.cards.slots id)
      takeOut id column.boardId) := by
  cases dst with
  | none => rfl
  | some dst => rfl

/-- The cards a deletion moves, run from a column that they leave. -/
theorem rehoused_of_moveOut {id boardId : Int} {dst : Option Int}
    (hdst : ∀ k, dst = some k → ∃ c, db.column? k = some c ∧ c.boardId = boardId)
    (hrun : moveOut conn dst (db.cards.slots id) db = .ok () db')
    (hleft : ∀ c ∈ db'.cards, c.columnId ≠ id) :
    Rehoused id dst db.cards db'.cards ∧
    db'.toTables = { db.toTables with cards := db'.cards } := by
  cases dst with
  | none =>
      obtain ⟨-, rfl⟩ := pure_ok.mp hrun
      exact ⟨.of_empty (slots_eq_nil.mpr hleft), rfl⟩
  | some dst =>
      have hidle (hempty : db.cards.slots id = []) : db' = db := by
        rw [hempty] at hrun
        exact (pure_ok.mp hrun).2.symm
      by_cases hsame : dst = id
      · cases hsame
        have hempty : db.cards.slots id = [] := by
          refine slots_eq_nil.mpr fun c hc hcolumn => ?_
          obtain ⟨c', hc', hcolumn'⟩ := stays_moveCardsTo hrun ⟨c, hc, hcolumn⟩
          exact hleft c' hc' hcolumn'
        cases hidle hempty
        exact ⟨.of_empty hempty, rfl⟩
      · obtain ⟨c, hc, -⟩ := hdst dst rfl
        have hcards : ∀ k ∈ db.cards.slots id, ∃ r ∈ db.cards, r.id = k ∧ r.columnId ≠ dst := by
          intro k hk
          obtain ⟨r, hr, hg, hkey⟩ := Table.mem_slots.mp hk
          exact ⟨r, hr, hkey, hg.trans_ne (Ne.symm hsame)⟩
        obtain ⟨_, db₁, hrun₁, happended, htables⟩ :=
          succeeds_moveCardsTo conn (Option.isSome_iff_exists.mpr ⟨c, hc⟩) Table.nodup_slots hcards
        cases hrun.symm.trans hrun₁
        exact ⟨happended.rehoused hsame fun hempty => congrArg (fun db : Db => db.cards)
          (hidle hempty), htables⟩

theorem takeOut_ok {id boardId : Int} {u : Unit} : takeOut id boardId db = .ok u db' ↔ ∃ gone : Db,
    gone.toTables = { db.toTables with
      columns := (db.columns.delete fun c => c.id == id).update (fun _ => true) (released id) } ∧
    db'.toTables = { gone.toTables with
      columns := gone.columns.renumber (gone.columns.slots boardId) } := by
  simp only [takeOut, deleteColumnRow, bind_ok, exec_ok, get_ok, setColumnPositions_ok]
  constructor
  · rintro ⟨_, gone, hgone, _, _, ⟨rfl, rfl⟩, hplaced⟩
    exact ⟨gone, hgone, hplaced⟩
  · rintro ⟨gone, hgone, hplaced⟩
    exact ⟨(), gone, hgone, gone, gone, ⟨rfl, rfl⟩, hplaced⟩

/-- A deletion moves the cards, removes the row and compacts the board. -/
theorem deleteColumn_steps {id : Int} {dst : Option Int} {u : Unit}
    (h : deleteColumn conn id dst db = .ok u db') :
    ∃ (column : Column) (gone : Db), db.column? id = some column ∧
      Rehoused id dst db.cards gone.cards ∧ gone.toTables = { db.toTables with
        cards := gone.cards
        columns := (db.columns.delete fun c => c.id == id).update (fun _ => true) (released id) } ∧
      db'.toTables = { gone.toTables with
        columns := gone.columns.renumber (gone.columns.slots column.boardId) } := by
  simp only [deleteColumn_eq, bind_ok, requireColumn_ok, transaction_ok, get_ok,
    checkDestination_ok, takeOut_ok] at h
  obtain ⟨column, _, ⟨hcolumn, rfl⟩, _, _, ⟨hdst, rfl⟩, _, _, ⟨rfl, rfl⟩, _, moved, hmoved, gone,
    hgone, hplaced⟩ := h
  have hstays : gone.columns = (moved.columns.delete fun c => c.id == id).update (fun _ => true)
      (released id) := by rw [hgone]
  have hleft : ∀ c ∈ moved.cards, c.columnId ≠ id := by
    intro c hc
    have hin : c ∈ gone.cards := by
      rw [hgone]
      exact hc
    obtain ⟨l, hl, hid⟩ := gone.card_column hin
    rw [hstays] at hl
    obtain ⟨l₀, hl₀, rfl⟩ := Table.mem_update.mp hl
    exact hid ▸ beq_eq_false_iff_ne.mp (Table.mem_delete.mp hl₀).2
  obtain ⟨hrehoused, htables⟩ := rehoused_of_moveOut hdst hmoved hleft
  refine ⟨column, gone, hcolumn, ?_, ?_, hplaced⟩
  · rw [hgone]
    exact hrehoused
  · rw [hgone, htables]

theorem deleted_of_deleteColumn {id : Int} {dst : Option Int} {u : Unit}
    (h : deleteColumn conn id dst db = .ok u db') :
    ∃ column, db.column? id = some column ∧ Deleted column dst db.toTables db'.toTables := by
  obtain ⟨column, gone, hcolumn, hrehoused, hgone, hplaced⟩ := deleteColumn_steps h
  obtain rfl : column.id = id := Table.key_of_find? hcolumn
  have hstays : gone.columns =
      (db.columns.delete fun c => c.id == column.id).update (fun _ => true)
      (released column.id) := by rw [hgone]
  have hnot : ∀ c ∈ gone.columns, c.id ≠ column.id := by
    intro c hc
    rw [hstays] at hc
    obtain ⟨c₀, hc₀, rfl⟩ := Table.mem_update.mp hc
    exact beq_eq_false_iff_ne.mp (Table.mem_delete.mp hc₀).2
  have hplaces : db'.columns.map unplaced = gone.columns.map unplaced := by
    rw [hplaced]
    exact Table.map_renumber (g := unplaced) (fun _ _ => rfl) _
  refine ⟨column, hcolumn, ?_, ?_, ?_, ?_, ?_⟩
  · refine Table.find?_eq_none.mpr fun c hc hid => ?_
    have hthere : unplaced c ∈ gone.columns.map unplaced := hplaces ▸ Table.mem_map.mpr ⟨c, hc, rfl⟩
    obtain ⟨c₀, hc₀, heq⟩ := Table.mem_map.mp hthere
    have hsame : c₀.id = c.id := congrArg Keyed.key heq
    exact hnot c₀ hc₀ (hsame.trans hid)
  · calc db'.columns.rows.map unplaced = gone.columns.rows.map unplaced :=
      congrArg Table.rows hplaces
      _ = _ := by
        rw [hstays]
        simp [Table.update, Table.delete, bne]
  · have hslots : gone.columns.slots column.boardId = (db.columns.slots column.boardId).filter
        (· != column.id) := by
      rw [hstays]
      exact (Table.slots_update (f := released column.id) (fun _ => rfl) fun _ => rfl).trans
        Table.slots_delete
    rw [hplaced, ← hslots]
    exact Table.arranged_renumber_slots
  · rw [hplaced]
    exact hrehoused
  · rw [hplaced, hgone]

/-- A column whose cards can go elsewhere is emptied. -/
theorem succeeds_moveOut {id boardId : Int}
    (hdst : ∀ k, dst? = some k → ∃ c, db.column? k = some c ∧ c.boardId = boardId)
    (hroom : db.cards.slots id = [] ∨ ∃ k, dst? = some k ∧ k ≠ id) :
    Succeeds (moveOut conn dst? (db.cards.slots id)) db fun _ db' =>
      (∀ c ∈ db'.cards, c.columnId ≠ id) ∧
        db'.toTables = { db.toTables with cards := db'.cards } := by
  rcases hroom with hempty | ⟨k, rfl, hne⟩
  · have hidle : moveOut conn dst? (db.cards.slots id) db = .ok () db := by
      rw [hempty]
      cases dst? <;> rfl
    exact ⟨(), db, hidle, slots_eq_nil.mp hempty, rfl⟩
  · obtain ⟨c, hc, -⟩ := hdst k rfl
    have hcards : ∀ x ∈ db.cards.slots id, ∃ r ∈ db.cards, r.id = x ∧ r.columnId ≠ k := by
      intro x hx
      obtain ⟨r, hr, hg, hkey⟩ := Table.mem_slots.mp hx
      exact ⟨r, hr, hkey, hg.trans_ne (Ne.symm hne)⟩
    refine (succeeds_moveCardsTo conn (Option.isSome_iff_exists.mpr ⟨c, hc⟩) Table.nodup_slots
      hcards).mono ?_
    rintro _ db' - ⟨happended, htables⟩
    refine ⟨fun r hr hcolumn => ?_, htables⟩
    have hin := (happended.rest r (hcolumn.trans_ne hne.symm)).mp hr
    exact hin.2 (Table.mem_slots.mpr ⟨r, hin.1, hcolumn, rfl⟩)

theorem succeeds_deleteColumn {id : Int} {column : Column} (hcolumn : db.column? id = some column)
    (hdst : ∀ k, dst? = some k → ∃ c, db.column? k = some c ∧ c.boardId = column.boardId)
    (hroom : db.cards.slots id = [] ∨ ∃ k, dst? = some k ∧ k ≠ id)
    (hruns : ∀ r ∈ db.runs, r.columnId ≠ id) :
    Succeeds (deleteColumn conn id dst?) db fun _ _ => True := by
  rw [deleteColumn_eq]
  refine succeeds_bind_run (requireColumn_run hcolumn) (succeeds_bind_run
    (checkDestination_ok (u := ()).mpr ⟨hdst, rfl⟩) ?_)
  refine Succeeds.transaction (succeeds_get_bind ?_)
  refine (succeeds_moveOut hdst hroom).bind fun _ moved _ ⟨hleft, htables⟩ => ?_
  have hmovedRuns : moved.runs = db.runs := by rw [htables]
  have hviolation := violation_deleteColumn moved.sound hleft (hmovedRuns ▸ hruns)
  refine (succeeds_exec hviolation).bind fun _ gone _ _ => ?_
  exact succeeds_get_bind ((setColumnPositions_total _).succeeds gone)

/-! ## The request -/

theorem validateColumnDelete_ok {hasCards hasActiveCard : Bool} :
    validateColumnDelete hasCards hasActiveCard dst? = .ok () ↔
      hasActiveCard = false ∧ (dst? = none → hasCards = false) := by
  rw [validateColumnDelete, except_bind_ok]
  constructor
  · rintro ⟨_, hactive, hcards⟩
    refine ⟨rejectIf_ok.mp hactive, fun hnone => ?_⟩
    simpa [hnone] using rejectIf_ok.mp hcards
  · rintro ⟨hactive, hcards⟩
    refine ⟨(), rejectIf_ok.mpr hactive, rejectIf_ok.mpr ?_⟩
    cases dst? with
    | none => simp [hcards rfl]
    | some k => simp

theorem isEmpty_listCardsInColumn (id : Int) : (!(db.listCardsInColumn id).isEmpty) = false ↔
    db.cards.slots id = [] := by
  rw [Bool.not_eq_false', List.isEmpty_iff, Table.slots, List.map_eq_nil_iff]
  rfl

/-- Column `k` of the board of `column`. -/
def Neighbour (db : Db) (column : Column) (k : Int) : Prop :=
  ∃ c, db.column? k = some c ∧ c.boardId = column.boardId

theorem succeeds_columnDelete (env : Env) {column : Column}
    (hcolumn : d.db.column? column.id = some column)
    (hopen : d.db.columnHasOpenRun column.id = false)
    (hruns : ∀ r ∈ d.db.runs, r.columnId ≠ column.id)
    (hdst : ∀ k, dst? = some k → Neighbour d.db column k)
    (hroom : d.db.cards.slots column.id = [] ∨ ∃ k, dst? = some k ∧ k ≠ column.id) :
    Succeeds (columnDelete env column.id dst?) d fun _ _ => True := by
  have hvalid : validateColumnDelete (!(d.db.listCardsInColumn column.id).isEmpty)
      (d.db.columnHasOpenRun column.id) dst? = .ok () := by
    refine validateColumnDelete_ok.mpr ⟨hopen, fun hnone => ?_⟩
    rcases hroom with hempty | ⟨k, hk, -⟩
    · exact (isEmpty_listCardsInColumn _).mpr hempty
    · rw [hnone] at hk
      cases hk
  have hstore : Succeeds (do
      let db ← get
      fromExcept ((validateColumnDelete (!(db.listCardsInColumn column.id).isEmpty)
        (db.columnHasOpenRun column.id) dst?).mapError .validation)
      deleteColumn env.conn column.id dst? : StoreM Unit) d.db fun _ _ => True := by
    refine succeeds_get_bind
      (succeeds_bind_run (fromExcept_ok.mpr ⟨mapError_ok.mpr hvalid, rfl⟩) ?_)
    exact succeeds_deleteColumn hcolumn hdst hroom hruns
  exact hstore.zoom.mono fun _ _ _ _ => trivial

theorem columnDelete_atomic (env : Env) (id : Int) (dst? : Option Int) :
    Atomic (columnDelete env id dst?) := by
  refine Atomic.zoom (fun _ => rfl) ?_
  refine readOnly_get.bind_atomic fun db => (readOnly_fromExcept _).bind_atomic fun _ => ?_
  refine (readOnly_requireColumn id).bind_atomic fun column => ?_
  exact (readOnly_checkDestination _ _).bind_atomic fun _ => atomic_transaction _

/-- A column is deleted with its cards sent on, or not at all. -/
theorem columnDelete_all_or_nothing (env : Env) (id : Int) (dst : Option Int) (d : DaemonState) :
    (∀ d', columnDelete env id dst d = .ok () d' → ∃ column, d.db.column? id = some column ∧
      Deleted column dst d.db.toTables d'.db.toTables) ∧
    (∀ e d', columnDelete env id dst d = .error e d' → d' = d) ∧
    (∀ column, d.db.column? id = some column → d.db.columnHasOpenRun id = false →
      (∀ r ∈ d.db.runs, r.columnId ≠ id) → (∀ k, dst = some k → Neighbour d.db column k) →
      (d.db.cards.slots id = [] ∨ ∃ k, dst = some k ∧ k ≠ id) →
        ∃ d', columnDelete env id dst d = .ok () d') := by
  refine ⟨fun d' h => ?_, columnDelete_atomic env id dst d,
    fun column hcolumn hopen hruns hdst hroom => ?_⟩
  · obtain ⟨db, hrun, rfl⟩ := store_ok.mp h
    obtain ⟨_, _, ⟨rfl, rfl⟩, hrun⟩ := bind_ok.mp hrun
    obtain ⟨_, _, hvalid, hrun⟩ := bind_ok.mp hrun
    obtain ⟨-, rfl⟩ := fromExcept_ok.mp hvalid
    exact deleted_of_deleteColumn hrun
  · obtain rfl : column.id = id := Table.key_of_find? hcolumn
    obtain ⟨_, d', hrun, -⟩ := succeeds_columnDelete env hcolumn hopen hruns hdst hroom
    exact ⟨d', hrun⟩

/-- A card in the seed column, and a second column. -/
def todoCard : DaemonState :=
  ((World.start Db.fresh).run oneAtATime
    [ .request permissiveEnv (.cardCreate { title := "Task", spaceRef := some "w1" }),
      .request permissiveEnv
        (.columnCreate { name := "Run", onSuccessColumnId := some 1 }) ]).daemon

theorem columnDelete_all_or_nothing_todo :
    ∃ d' column, columnDelete permissiveEnv 1 (some 2) todoCard = .ok () d' ∧
    todoCard.db.column? 1 = some column ∧
    Deleted column (some 2) todoCard.db.toTables d'.db.toTables := by
  have hspec := columnDelete_all_or_nothing permissiveEnv 1 (some 2) todoCard
  obtain ⟨column, hcolumn⟩ : ∃ column, todoCard.db.column? 1 = some column :=
    Option.isSome_iff_exists.mp (by decide +kernel)
  obtain ⟨run, hrun⟩ : ∃ run, todoCard.db.column? 2 = some run :=
    Option.isSome_iff_exists.mp (by decide +kernel)
  have hboards : (todoCard.db.column? 2).map (fun c => c.boardId) = (todoCard.db.column? 1).map
      (fun c => c.boardId) := by
    decide +kernel
  rw [hcolumn, hrun] at hboards
  obtain ⟨d', hdelete⟩ := hspec.2.2 column hcolumn (by decide +kernel) (by decide +kernel)
    (by
      intro k hk
      cases hk
      exact ⟨run, hrun, Option.some.inj hboards⟩)
    (.inr ⟨2, rfl, by decide⟩)
  obtain ⟨column', hcolumn', hdeleted⟩ := hspec.1 d' hdelete
  exact ⟨d', column', hdelete, hcolumn', hdeleted⟩

/-- Two columns, the second with one card, which is not at the top. -/
def gappy : Db where
  toTables := { Db.freshTables with
    columns := Db.freshTables.columns.insert fun id => newColumn { name := "Run" } 1 1 none none id
    cards := Table.empty.insert fun id => newCard permissiveEnv.conn { title := "Task" } 1 2 5 id }
  sound := by decide +kernel

/-- An empty column stays when the destination named with it does not exist, and one that goes
leaves the destination as it is. -/
theorem empty_column_refused :
    (Db.fresh.columnHasOpenRun 1 = false ∧ Db.fresh.runs.rows = [] ∧ Db.fresh.cards.slots 1 = [] ∧
      succeeded (columnDelete permissiveEnv 1 (some 2) (World.start Db.fresh).daemon) = false) ∧
    succeeded (columnDelete permissiveEnv 1 (some 2) (World.start gappy).daemon) = true ∧
    (finalState (columnDelete permissiveEnv 1 (some 2)
      (World.start gappy).daemon)).db.cards.rows.map
      (fun c => (c.columnId, c.position)) = [(2, 5)] := by
  decide +kernel

end HerdrBoard.Editing
