import HerdrBoard.Core.Operations
import HerdrBoard.Core.Lemmas.Standing
import HerdrBoard.Lifecycle.Units
import HerdrBoard.Editing.Deleting

/-!
# Arranging cards and columns

What each call of the store does to the order of the cards in every column and of the columns on
every board. -/

open Lib HerdrBoard.Core HerdrBoard.Daemon HerdrBoard.Lifecycle

namespace HerdrBoard.Editing

variable {conn : Conn} {db db' : Db}

/-! ## Orders -/

/-- The cards of each column and the columns of each board, in order. -/
structure Orders where
  cards : Arrangement
  columns : Arrangement

/-- The orders in which the queries list cards and columns. -/
def orders (db : Db) : Orders := ⟨db.cards.slots, db.columns.slots⟩

/-- Cards and columns are in the given orders, at positions without gaps. -/
structure Ordered (o : Orders) (db : Db) : Prop where
  cards : db.cards.Arranges o.cards
  columns : db.columns.Arranges o.columns

variable {o : Orders}

theorem Ordered.orders_eq (h : Ordered o db) : orders db = o := by
  rw [orders, h.cards.slots_eq, h.columns.slots_eq]

def Tables.places (t : Tables) : List (Int × Int × Int) × List (Int × Int × Int) :=
  (t.cards.places, t.columns.places)

theorem Ordered.of_places (h : Ordered o db)
    (hplaces : Tables.places db'.toTables = Tables.places db.toTables) :
    Ordered o db' :=
  ⟨h.cards.of_places (congrArg Prod.fst hplaces), h.columns.of_places (congrArg Prod.snd hplaces)⟩

/-! ## Placing a row -/

theorem clampIndex_le (position : Option Int) (n : Nat) : clampIndex position n ≤ n :=
  Nat.min_le_right _ _

/-- The index the store computes is the position brought into range. -/
theorem put_eq (A : Arrangement) (x g : Int) (position : Option Int) :
    A.put x g position = A.place x g (clampIndex position (A.remove x g).length) := by
  cases position with
  | none => simp [Arrangement.put, clampIndex]
  | some p =>
      have hclamp : (max 0 (min p (A.remove x g).length)).toNat = clampIndex (some p)
          (A.remove x g).length := by
        simp only [clampIndex, Option.map_some, Option.getD_some]
        omega
      simp only [Arrangement.put, hclamp]

section Placing

variable {ρ : Type} [Placed ρ] {t : Table ρ} {A : Arrangement} {g : Int}

/-- The keys of group `g`, with `x` at the index the position stands for. -/
def placing (t : Table ρ) (g x : Int) (position : Option Int) : List Int :=
  (t.others g x).insertIdx (clampIndex position (t.others g x).length) x

theorem arranges_insert (h : t.Arranges A) {row : Int → ρ} {hkey}
    (hg : Placed.group (row t.nextKey) = g)
    (hp : Placed.position (row t.nextKey) = t.endPosition g) :
    (t.insert row hkey).Arranges (A.put t.nextKey g none) := by
  have hnew : t.nextKey ∉ A g := by
    intro hk
    obtain ⟨r, hr, -, hkr⟩ := (h g).present _ hk
    exact (Table.lt_nextKey hr).ne hkr
  have hinsert : (t.insert row hkey).Arranges (A.place t.nextKey g (A g).length) := h.insert hg hp
  rw [put_eq, Arrangement.remove_of_not_mem hnew]
  simpa [clampIndex] using hinsert

/-- A row put elsewhere in its group. -/
theorem arranges_put_same (h : t.Arranges A) {r : ρ} (hr : r ∈ t) (position : Option Int) :
    (t.renumber (placing t (Placed.group r) (Keyed.key r) position)).Arranges
      (A.put (Keyed.key r) (Placed.group r) position) := by
  have hx : Keyed.key r ∈ A (Placed.group r) := (h _).mem_iff.mpr ⟨r, hr, rfl, rfl⟩
  have hm := Table.movedRow_self hr
  have hothers := (h.but 0).others_moved hm
  rw [placing, put_eq, hothers, ← hothers]
  exact h.place_same hx (hothers ▸ clampIndex_le _ _) hm

/-- A row moved to a group, and its former group closed up. -/
theorem arranges_put (h : t.Arranges A) {r : ρ} (hr : r ∈ t) {f : ρ → ρ} {hkey}
    (hf : ∀ s, Placed.group (f s) = g) (position : Option Int) {placed : Table ρ}
    (hplaced : placed = (t.update (fun s => Keyed.key s == Keyed.key r) f hkey).renumber
      (placing (t.update (fun s => Keyed.key s == Keyed.key r) f hkey) g (Keyed.key r) position)) :
    (placed.renumber (placed.slots (Placed.group r))).Arranges (A.put (Keyed.key r) g position) ∧
      (Placed.group r = g → placed.Arranges (A.put (Keyed.key r) g position)) := by
  have hx : Keyed.key r ∈ A (Placed.group r) := (h _).mem_iff.mpr ⟨r, hr, rfl, rfl⟩
  have hm : Table.MovedRow t (t.update (fun s => Keyed.key s == Keyed.key r) f hkey)
      (Keyed.key r) g :=
    Table.movedRow_update ⟨r, hr, rfl⟩ hf
  have hothers := (h.but 0).others_moved hm
  have hi : clampIndex position (A.remove (Keyed.key r) g).length ≤
      (A.remove (Keyed.key r) g).length := clampIndex_le _ _
  rw [hplaced, placing, put_eq]
  refine ⟨?_, ?_⟩
  · have hcompact := h.place_compact hx hm hi
    rwa [hothers] at hcompact ⊢
  · rintro rfl
    have hsame := h.place_same hx hi hm
    rwa [hothers] at hsame ⊢

end Placing

/-! ## Statements about cards -/

theorem standingBlind_places : StandingBlind Tables.places where
  cards t p f hkey hf := by
    have hcards : (t.cards.update p f hkey).places = t.cards.places :=
      Table.places_update (fun c => (hf c).2.1) fun c => (hf c).2.2
    simp only [Tables.places, hcards]
  runs _ _ _ _ _ := rfl

theorem runBlind_places : RunBlind Tables.places := fun _ _ => rfl

theorem keeps_places_enqueueRunTx (cardId : Int) (p : EnqueueRun) :
    KeepsTables Tables.places (enqueueRunTx conn cardId p) :=
  keeps_standing_enqueueRunTx standingBlind_places runBlind_places cardId p

theorem Ordered.keeps {α : Type} {x : StoreM α} (h : Ordered o db)
    (hx : KeepsTables Tables.places x) {a : α}
    (hrun : x db = .ok a db') : Ordered o db' := h.of_places (hx.ok hrun)

/-- The orders with a card put into a column. -/
def Orders.putCard (o : Orders) (id column : Int) (position : Option Int) : Orders :=
  { o with cards := o.cards.put id column position }

/-- A card rewritten into another column and placed there; its former column is closed up next. -/
theorem ordered_placed (h : Ordered o db) {id column : Int} {card : Card}
    (hcard : db.card? id = some card) {f : Card → Card} {hkey} (hf : ∀ c, (f c).columnId = column)
    {n : Nat} {u : Unit} {position : Option Int} {moved placed : Db}
    (hmoved : updateCards (fun c => c.id == id) f hkey db = .ok n moved)
    (hplaced : placeCardInColumnTx id column position moved = .ok u placed) :
    (∀ v closed, renumberColumnCardsTx card.columnId placed = .ok v closed →
      Ordered (o.putCard id column position) closed) ∧
      (card.columnId = column → Ordered (o.putCard id column position) placed) := by
  obtain ⟨hmem, rfl⟩ := Table.find?_eq_some.mp hcard
  simp only [placeCardInColumnTx, bind_ok, get_ok, setCardPositions_ok] at hplaced
  obtain ⟨_, _, ⟨rfl, rfl⟩, hplaced⟩ := hplaced
  have htables := (updateCards_ok.mp hmoved).1
  have hcolumns : placed.columns = db.columns := by rw [hplaced, htables]
  have hcards : placed.cards =
      (db.cards.update (fun c => Keyed.key c == Keyed.key card) f hkey).renumber
      (placing (db.cards.update (fun c => Keyed.key c == Keyed.key card) f hkey) column
        (Keyed.key card) position) := by
    rw [hplaced, htables]
    rfl
  obtain ⟨hclosed, hsame⟩ := arranges_put h.cards hmem hf position hcards
  refine ⟨fun v closed hrun => ⟨?_, ?_⟩, fun hcolumn => ⟨hsame hcolumn, ?_⟩⟩
  · simp only [renumberColumnCardsTx, bind_ok, get_ok, setCardPositions_ok] at hrun
    obtain ⟨_, _, ⟨rfl, rfl⟩, hrun⟩ := hrun
    rw [hrun]
    exact hclosed
  · simp only [renumberColumnCardsTx, bind_ok, get_ok, setCardPositions_ok] at hrun
    obtain ⟨_, _, ⟨rfl, rfl⟩, hrun⟩ := hrun
    rw [hrun]
    show placed.columns.Arranges o.columns
    rw [hcolumns]
    exact h.columns
  · rw [hcolumns]
    exact h.columns

/-! ## Moving cards -/

variable {id column : Int} {position : Option Int}

theorem moveCard_ordered {card : Card} (h : Ordered o db)
    (hrun : moveCard conn id column position db = .ok card db') :
    Ordered (o.putCard id column position) db' := by
  simp only [moveCard, bind_ok, requireCard_ok, requireColumn_ok, refuse_ok, transaction_ok, ite_ok,
    pure_ok] at hrun
  obtain ⟨old, _, ⟨hold, rfl⟩, _, _, ⟨-, rfl⟩, _, _, ⟨-, rfl⟩, _, _, ⟨_, moved, hmoved, _, placed,
    hplaced, hclosed⟩, -, rfl⟩ := hrun
  have hspec := ordered_placed h hold (by intro c; rfl) hmoved hplaced
  rcases hclosed with ⟨-, hclosed⟩ | ⟨hsame, -, rfl⟩
  · exact hspec.1 _ _ hclosed
  · exact hspec.2 (not_not.mp hsame)

theorem moveCardAndEnqueueUow_ordered {run : EnqueueRun} {moved : Card × Run} (h : Ordered o db)
    (hrun : moveCardAndEnqueueUow conn id column position run db = .ok moved db') :
    Ordered (o.putCard id column position) db' := by
  simp only [moveCardAndEnqueueUow, bind_ok, requireCard_ok, requireColumn_ok, refuse_ok,
    transaction_ok, get_ok, getRun_ok, pure_ok] at hrun
  obtain ⟨old, _, ⟨hold, rfl⟩, _, _, ⟨-, rfl⟩, _, _, ⟨-, rfl⟩, _, _, ⟨-, rfl⟩, _, _, ⟨rfl, rfl⟩, _,
    _, ⟨-, rfl⟩, _, _, ⟨_, moved, hmoved, _, placed, hplaced, hrest⟩, _, _, ⟨-, rfl⟩, _, _, ⟨-,
    rfl⟩, -, rfl⟩ := hrun
  have hspec := ordered_placed h hold (by intro c; rfl) hmoved hplaced
  rcases ite_ok.mp hrest with ⟨-, hrest⟩ | ⟨hsame, hrest⟩
  · obtain ⟨_, closed, hclosed, hqueued⟩ := bind_ok.mp hrest
    exact (hspec.1 _ _ hclosed).keeps (keeps_places_enqueueRunTx _ _) hqueued
  · exact (hspec.2 (not_not.mp hsame)).keeps (keeps_places_enqueueRunTx _ _) hrest

theorem transferCard_ordered {card : Card} {board : Int} (h : Ordered o db)
    (hrun : transferCard conn id board column position db = .ok card db') :
    Ordered (o.putCard id column position) db' := by
  simp only [transferCard, bind_ok, requireCard_ok, getBoard_ok, requireColumn_ok, refuse_ok,
    transaction_ok] at hrun
  obtain ⟨_, _, ⟨old, _, ⟨hold, rfl⟩, _, _, ⟨-, rfl⟩, _, _, ⟨-, rfl⟩, _, _, ⟨-, rfl⟩, _, moved,
    hmoved, _, placed, hplaced, hclosed⟩, -, rfl⟩ := hrun
  exact (ordered_placed h hold (by intro c; rfl) hmoved hplaced).1 _ _ hclosed

theorem transferCardAndEnqueueUow_ordered {run : EnqueueRun} {moved : Card × Run} {board : Int}
    (h : Ordered o db)
    (hrun : transferCardAndEnqueueUow conn id board column position run db = .ok moved db') :
    Ordered (o.putCard id column position) db' := by
  simp only [transferCardAndEnqueueUow, bind_ok, requireCard_ok, getBoard_ok, requireColumn_ok,
    refuse_ok, transaction_ok, get_ok, getRun_ok, pure_ok] at hrun
  obtain ⟨old, _, ⟨hold, rfl⟩, _, _, ⟨-, rfl⟩, _, _, ⟨-, rfl⟩, _, _, ⟨-, rfl⟩, _, _, ⟨-, rfl⟩, _, _,
    ⟨rfl, rfl⟩, _, _, ⟨-, rfl⟩, _, _, ⟨_, moved, hmoved, _, placed, hplaced, _, closed, hclosed,
    hqueued⟩, _, _, ⟨-, rfl⟩, _, _, ⟨-, rfl⟩, -, rfl⟩ := hrun
  exact ((ordered_placed h hold (by intro c; rfl) hmoved hplaced).1 _ _ hclosed).keeps
    (keeps_places_enqueueRunTx _ _) hqueued

/-! ## Finalizing -/

theorem placeCardInColumnTx_none (id column : Int) : placeCardInColumnTx id column none = (do
    let db ← get
    setCardPositions (db.cards.others column id ++ [id])) := by
  funext db
  have hids : placing db.cards column id none = db.cards.others column id ++ [id] := by
    simp [placing, clampIndex, List.insertIdx_length_self]
  show setCardPositions (placing db.cards column id none) db = setCardPositions _ db
  rw [hids]

/-- The orders after a card has gone where its run sends it. -/
def Orders.transition (o : Orders) (id : Int) : Option Int → Orders
  | some column => o.putCard id column none
  | none => o

theorem applyTransition_ordered {u : Unit} {target : Option Int} (h : Ordered o db)
    (hrun : applyTransition id target db = .ok u db') : Ordered (o.transition id target) db' := by
  cases target with
  | none =>
      obtain ⟨-, rfl⟩ := pure_ok.mp hrun
      exact h
  | some column =>
      simp only [applyTransition, bind_ok, requireCard_ok, refuse_ok, ite_ok, pure_ok] at hrun
      obtain ⟨_, _, hget, _, _, ⟨-, rfl⟩, old, _, ⟨hold, rfl⟩, _, moved, hmoved, hrest⟩ := hrun
      obtain ⟨-, rfl⟩ := get_ok.mp hget
      obtain ⟨_, _, hread, hplace⟩ := hrest
      obtain ⟨rfl, rfl⟩ := get_ok.mp hread
      obtain ⟨_, placed, hset, hclosed⟩ := hplace
      have hplaced : placeCardInColumnTx id column none moved = .ok () placed := by
        rw [placeCardInColumnTx_none]
        exact hset
      have hspec := ordered_placed h hold (by intro c; rfl) hmoved hplaced
      rcases hclosed with ⟨-, hclosed⟩ | ⟨hsame, -, rfl⟩
      · exact hspec.1 _ _ hclosed
      · exact hspec.2 (not_not.mp hsame)

theorem commentBlind_places : CommentBlind Tables.places := fun _ _ _ => rfl

theorem finalizeRunUow_ordered {p : FinalizeRun} {effects : FinalizeEffects} (h : Ordered o db)
    (hrun : finalizeRunUow conn p db = .ok effects db') :
    ∃ run, db.run? p.runId = some run ∧ Ordered (o.transition run.cardId p.targetColumnId) db' := by
  simp only [finalizeRunUow, finalizeRunTx, bind_ok, transaction_ok, get_ok, okOr_ok,
    requireCard_ok, getRun_ok, pure_ok] at hrun
  obtain ⟨_, closed, ⟨_, _, ⟨rfl, rfl⟩, run, _, ⟨hfind, rfl⟩, _, _, hcheck, _, ended, hended, _, _,
    hfault, _, told, htold, _, moved, hmoved, _, settled, hsettled, _, _, hnext, -, rfl⟩, _, _, ⟨-,
    rfl⟩, _, _, ⟨-, rfl⟩, _, _, hread, -, rfl⟩ := hrun
  cases (readOnly_checkNext _ _).ok hcheck
  cases lifecycleFault_ok hfault
  cases (readOnly_getNextRun _).ok hread
  refine ⟨run, (Option.filter_eq_some_iff.mp hfind).1, ?_⟩
  have hplaces : Tables.places ended.toTables = Tables.places db.toTables := by
    rw [updateRuns_ok.mp hended]
    rfl
  have hstart := (h.of_places hplaces).keeps (keeps_insertComments commentBlind_places _ _ _) htold
  have hthere : Ordered (o.transition run.cardId p.targetColumnId) moved :=
    applyTransition_ordered hstart hmoved
  have hdone := hthere.keeps (keeps_standing_updateCards standingBlind_places
    (by intro c; exact ⟨rfl, rfl, rfl⟩)) hsettled
  exact hdone.keeps (keeps_standing_insertNext standingBlind_places runBlind_places _ _) hnext

/-! ## Creating and deleting cards -/

theorem insertCard_ordered (h : Ordered o db) {row : Int → Card} {hkey} {id column : Int}
    (hcolumn : (row db.cards.nextKey).columnId = column)
    (hposition : (row db.cards.nextKey).position = db.cards.endPosition column)
    (hrun : insertCard row hkey db = .ok id db') :
    Ordered (o.putCard id column none) db' ∧ id = db.cards.nextKey ∧
    db'.card? id = some (row id) := by
  obtain ⟨htables, rfl⟩ := insertCard_ok.mp hrun
  refine ⟨⟨?_, ?_⟩, rfl, ?_⟩
  · rw [htables]
    exact @arranges_insert Card _ _ _ _ h.cards row hkey hcolumn hposition
  · rw [htables]
    exact h.columns
  · rw [Db.card?, htables]
    simp [Table.find?_insert]

/-- A card put elsewhere in its column. -/
theorem placeCardInColumnTx_ordered (h : Ordered o db) {card : Card}
    (hcard : db.card? id = some card) {u : Unit}
    (hrun : placeCardInColumnTx id card.columnId position db = .ok u db') :
    Ordered (o.putCard id card.columnId position) db' := by
  obtain ⟨hmem, rfl⟩ := Table.find?_eq_some.mp hcard
  simp only [placeCardInColumnTx, bind_ok, get_ok, setCardPositions_ok] at hrun
  obtain ⟨_, _, ⟨rfl, rfl⟩, htables⟩ := hrun
  refine ⟨?_, ?_⟩
  · rw [htables]
    exact arranges_put_same h.cards hmem position
  · rw [htables]
    exact h.columns

theorem putCard_putCard {first : Option Int} {column' : Int} :
    (o.putCard id column' first).putCard id column position = o.putCard id column position := by
  simp only [Orders.putCard, Arrangement.put_put]

theorem createCard_ordered {p : CardCreateParams} {card : Card} (h : Ordered o db)
    (hrun : createCard conn p db = .ok card db') :
    ∃ column, db.newCardColumn p = some column ∧
      Ordered (o.putCard db.cards.nextKey column p.position) db' := by
  simp only [createCard_eq, inserting, bind_ok, getBoard_ok, chooseColumn_ok, requireColumn_ok,
    refuse_ok, get_ok] at hrun
  obtain ⟨_, _, ⟨-, rfl⟩, column, _, ⟨hcolumn, rfl⟩, _, _, ⟨-, rfl⟩, _, _, ⟨-, rfl⟩, _, _,
    ⟨rfl, rfl⟩, id, inserted, hinserted, hplaced⟩ := hrun
  obtain ⟨hend, rfl, -⟩ := insertCard_ordered h rfl rfl hinserted
  refine ⟨column, hcolumn, ?_⟩
  cases hposition : p.position with
  | none =>
      rw [hposition] at hplaced
      obtain ⟨-, rfl⟩ := requireCard_ok.mp hplaced
      exact hend
  | some position =>
      rw [hposition] at hplaced
      obtain ⟨_, _, hmoved, hread⟩ := bind_ok.mp hplaced
      obtain ⟨-, rfl⟩ := requireCard_ok.mp hread
      have hmoved := moveCard_ordered hend hmoved
      rwa [putCard_putCard] at hmoved

theorem createCardAndEnqueueUow_ordered {p : CardCreateParams} {run : EnqueueRun}
    {created : Card × Run} (h : Ordered o db)
    (hrun : createCardAndEnqueueUow conn p run db = .ok created db') :
    ∃ column, db.newCardColumn p = some column ∧
      Ordered (o.putCard db.cards.nextKey column p.position) db' := by
  simp only [createCardAndEnqueueUow, bind_ok, getBoard_ok, defaultColumnId_ok, requireColumn_ok,
    refuse_ok, get_ok, transaction_ok, requireCard_ok, getRun_ok, pure_ok] at hrun
  obtain ⟨_, _, ⟨-, rfl⟩, default, _, ⟨⟨first, hfirst, rfl⟩, rfl⟩, _, _, ⟨-, rfl⟩, _, _, ⟨-, rfl⟩,
    _, _, ⟨-, rfl⟩, _, _, ⟨rfl, rfl⟩, _, _, ⟨id, inserted, hinserted, hrest⟩, _, _, ⟨-, rfl⟩, _, _,
    ⟨-, rfl⟩, -, rfl⟩ :=
  hrun
  obtain ⟨hend, rfl, hrow⟩ := insertCard_ordered h rfl rfl hinserted
  refine ⟨p.columnId.getD first.id, ?_, ?_⟩
  · rw [Db.newCardColumn, hfirst]
    cases p.columnId <;> rfl
  · rcases ite_ok.mp hrest with ⟨-, hrest⟩ | ⟨hnone, hrest⟩
    · simp only [bind_ok, pure_ok] at hrest
      obtain ⟨_, placed, hplaced, _, _, hqueued, -, rfl⟩ := hrest
      have hthere := placeCardInColumnTx_ordered hend hrow hplaced
      have hdone := hthere.keeps (keeps_places_enqueueRunTx _ _) hqueued
      rwa [putCard_putCard] at hdone
    · simp only [bind_ok, pure_ok] at hrest
      obtain ⟨_, _, hqueued, -, rfl⟩ := hrest
      have hposition : p.position = none := by simpa using hnone
      rw [hposition]
      exact hend.keeps (keeps_places_enqueueRunTx _ _) hqueued

/-- A copy stands right below the card. -/
theorem duplicateCard_ordered {copy : Card} (h : Ordered o db)
    (hrun : duplicateCard conn id db = .ok copy db') : ∃ card, db.card? id = some card ∧
      Ordered (o.putCard db.cards.nextKey card.columnId
        (some ((o.cards card.columnId).idxOf id + 1))) db' := by
  simp only [duplicateCard, bind_ok, requireCard_ok, transaction_ok, get_ok, pure_ok] at hrun
  obtain ⟨card, _, ⟨hcard, rfl⟩, _, _, ⟨_, _, ⟨rfl, rfl⟩, _, inserted, hinserted, _, placed,
    hplaced, rfl, rfl⟩, -, rfl⟩ := hrun
  obtain ⟨hend, rfl, hrow⟩ := insertCard_ordered h rfl rfl hinserted
  refine ⟨card, hcard, ?_⟩
  obtain ⟨hmem, rfl⟩ := Table.find?_eq_some.mp hcard
  have hposition : card.position = (o.cards card.columnId).idxOf (Keyed.key card) :=
    ((h.cards _).placed card hmem rfl).2
  rw [← hposition]
  have hthere := placeCardInColumnTx_ordered hend hrow hplaced
  rwa [putCard_putCard] at hthere

/-- The orders with a card taken out. -/
def Orders.removeCard (o : Orders) (id : Int) : Orders := { o with cards := o.cards.remove id }

theorem deleteCard_ordered {u : Unit} (h : Ordered o db) (hrun : deleteCard id db = .ok u db') :
    Ordered (o.removeCard id) db' := by
  simp only [deleteCard, deleteCardRow, renumberColumnCardsTx, bind_ok, requireCard_ok, exec_ok,
    transaction_ok, get_ok, setCardPositions_ok] at hrun
  obtain ⟨card, _, ⟨hcard, rfl⟩, _, gone, hgone, _, _, ⟨rfl, rfl⟩, hclosed⟩ := hrun
  obtain ⟨hmem, rfl⟩ := Table.find?_eq_some.mp hcard
  have hdeleted := h.cards.delete ((h.cards _).mem_iff.mpr ⟨card, hmem, rfl, rfl⟩)
  refine ⟨?_, ?_⟩
  · rw [hclosed, hgone]
    exact hdeleted.compact
  · rw [hclosed, hgone]
    exact h.columns

end HerdrBoard.Editing
