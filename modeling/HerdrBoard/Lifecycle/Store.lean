import HerdrBoard.Lifecycle.Evolution
import HerdrBoard.Core.Lemmas.Frames

/-!
# The store refines the lifecycle

Every unit of work of the store is a sequence of lifecycle events.
-/

open Lib HerdrBoard.Core

namespace HerdrBoard.Lifecycle

def cardState (c : Card) : CardState where
  id := c.id
  space := SpaceKey.fromCard c
  status := c.status
  awaitingReason := c.awaitingReason
  sessionId := c.sessionId

theorem key_cardState_eq (c : Card) : Keyed.key (cardState c) = Keyed.key c := rfl

@[simp] theorem cardState_id (c : Card) : (cardState c).id = c.id := rfl

/-- The cards as the lifecycle sees them. -/
def cardStates (cards : Table Card) : Table CardState := cards.map cardState key_cardState_eq

/-- The lifecycle state of a store. -/
def life (t : Tables) : Life where
  cards := cardStates t.cards
  runs := t.runs

@[simp] theorem life_cards (t : Tables) : (life t).cards = cardStates t.cards := rfl

@[simp] theorem life_runs (t : Tables) : (life t).runs = t.runs := rfl

section CardStates

variable {cards : Table Card}

@[simp] theorem find?_cardStates (id : Int) :
    (cardStates cards).find? id = (cards.find? id).map cardState :=
  Table.find?_map id

theorem mem_cardStates {c : CardState} : c ∈ cardStates cards ↔ ∃ c₀ ∈ cards, cardState c₀ = c :=
  Table.mem_map

@[simp] theorem nextKey_cardStates : (cardStates cards).nextKey = cards.nextKey := Table.nextKey_map

theorem rows_cardStates_insert {cards' : Table Card} {row : Int → Card} {space : SpaceKey}
    (h : cards'.rows = cards.rows ++ [row cards.nextKey])
    (hrow : ∀ k, cardState (row k) = Life.newCard space k) :
    (cardStates cards').rows = (cardStates cards).rows ++
      [Life.newCard space (cardStates cards).nextKey] := by
  rw [nextKey_cardStates, ← hrow]
  simp [cardStates, Table.map, h]

/-- One card rewritten, as the lifecycle sees it. -/
theorem rows_cardStates_update {cards' : Table Card} {id : Int} {f : Card → Card}
    {g : CardState → CardState}
    (h : cards'.rows = cards.rows.map fun c => if c.id == id then f c else c)
    (hf : ∀ c ∈ cards, c.id = id → cardState (f c) = g (cardState c)) :
    (cardStates cards').rows = (cardStates cards).rows.map fun c =>
      if c.id == id then g c else c := by
  simp only [cardStates, Table.map, h, List.map_map]
  refine List.map_congr_left fun c hc => ?_
  simp only [Function.comp, cardState_id, beq_iff_eq]
  split
  · next h => exact hf c hc h
  · rfl

theorem cardStates_update_self {p : Card → Bool} {f : Card → Card} {hkey}
    (hf : ∀ c, cardState (f c) = cardState c) :
    cardStates (cards.update p f hkey) = cardStates cards :=
  Table.map_update_self hf

theorem cardStates_delete {id : Int} :
    cardStates (cards.delete fun c => c.id == id) = (cardStates cards).delete fun c => c.id == id :=
  Table.map_delete fun _ => rfl

end CardStates

/-- A store whose rows are those of a lifecycle state. -/
theorem life_eq {t : Tables} {l : Life} (hcards : (cardStates t.cards).rows = l.cards.rows)
    (hruns : t.runs.rows = l.runs.rows) : life t = l := by
  obtain ⟨cards, runs⟩ := l
  exact congr (congrArg Life.mk (Table.ext hcards)) (Table.ext hruns)

/-! ## Runs of events -/

/-- The store gets from one state to the other by events of `E`. -/
def Via (E : Event → Prop) (db db' : Db) : Prop :=
  lifecycle.Steps (fun _ e => E e) (life db.toTables) (life db'.toTables)

instance (E : Event → Prop) : Std.Refl (Via E) := ⟨fun _ => .refl⟩

instance (E : Event → Prop) : IsTrans Db (Via E) :=
  ⟨fun _ _ _ h h' => Relation.ReflTransGen.trans h h'⟩

variable {E : Event → Prop} {db db' : Db}

theorem Via.mono {E' : Event → Prop} (hE : ∀ e, E e → E' e) (h : Via E db db') : Via E' db db' := by
  refine Relation.ReflTransGen.mono ?_ _ _ h
  rintro l l' ⟨e, he, hs⟩
  exact ⟨e, hE e he, hs⟩

theorem via_of_eq (h : life db'.toTables = life db.toTables) : Via E db db' := by
  unfold Via
  rw [h]
  exact .refl

/-- One event. -/
theorem via_step {e : Event} {l : Life} (he : E e) (h : Step (life db.toTables) e l)
    (hl : life db'.toTables = l) : Via E db db' := .single ⟨e, he, hl ▸ h⟩

theorem Via.inv (h : Via E db db') (hi : Inv (life db.toTables)) : Inv (life db'.toTables) :=
  hi.steps h

theorem respects_via {α : Type} {x : StoreM α} (h : KeepsTables life x) : Respects (Via E) x :=
  h.mono fun _ _ hst => via_of_eq hst

/-! ## Operations without events -/

/-- Writing cards in fields the lifecycle does not see. -/
theorem life_writeCards {t : Tables} {cards : Table Card}
    (h : cardStates cards = cardStates t.cards) :
    life { t with cards } = life t := congrArg (Life.mk · t.runs) h

theorem keeps_life_updateCards {p : Card → Bool} {f : Card → Card} {hkey}
    (hf : ∀ c, cardState (f c) = cardState c) : KeepsTables life (updateCards p f hkey) :=
  keeps_updateCards fun _ => life_writeCards (cardStates_update_self hf)

theorem commentBlind_life : CommentBlind life := fun _ _ _ => rfl

theorem columnBlind_life : ColumnBlind life := fun _ _ => rfl

theorem siteBlind_life : SiteBlind life := ⟨fun _ _ _ => rfl, fun _ _ _ _ _ => rfl⟩

theorem placeBlind_life : PlaceBlind life := by
  intro t p f hkey hf
  refine life_writeCards (cardStates_update_self fun c => ?_)
  obtain ⟨_, _, _, hc⟩ := hf c
  rw [hc]
  rfl

theorem keeps_life_transferCard (conn : Conn) (id board column : Int) (position : Option Int) :
    KeepsTables life (transferCard conn id board column position) := by
  refine Respects.bind (Respects.transaction ?_) fun _ => (readOnly_requireCard id).respects
  refine (readOnly_requireCard id).respects.bind fun card =>
    (readOnly_getBoard board).respects.bind fun _ => ?_
  refine (readOnly_requireColumn column).respects.bind fun _ =>
    (readOnly_refuse _ _).respects.bind fun _ => ?_
  refine Respects.bind (keeps_life_updateCards fun _ => rfl) fun _ => ?_
  exact (keeps_placeCardInColumnTx placeBlind_life id column position).bind fun _ =>
    keeps_renumberColumnCardsTx placeBlind_life _

theorem keeps_life_setCardArchived (conn : Conn) (id : Int) (archived : Bool) :
    KeepsTables life (setCardArchived conn id archived) := by
  refine (readOnly_requireCard id).respects.bind fun _ => ?_
  exact Respects.bind (keeps_life_updateCards fun _ => rfl) fun _ =>
    (readOnly_requireCard id).respects

/-! ## Creating cards -/

theorem insertCard_atomic {row : Int → Card} {hkey} : Atomic (insertCard row hkey) :=
  readOnly_get.bind_atomic fun _ => (exec_atomic _).bind_total fun _ => total_pure _

theorem via_insertCard (hE : E .create) {row : Int → Card} {hkey} {space : SpaceKey} {id : Int}
    (hrow : ∀ k, cardState (row k) = Life.newCard space k)
    (h : insertCard row hkey db = .ok id db') : Via E db db' := by
  obtain ⟨htab, -⟩ := insertCard_ok.mp h
  refine via_step hE (.create space) (life_eq ?_ ?_)
  · rw [htab]
    exact rows_cardStates_insert rfl hrow
  · rw [htab]
    rfl

theorem respects_insertCard (hE : E .create) (space : SpaceKey) {row : Int → Card} {hkey}
    (hrow : ∀ k, cardState (row k) = Life.newCard space k) :
    Respects (Via E) (insertCard row hkey) :=
  insertCard_atomic.respects fun _ _ _ h => via_insertCard hE hrow h

/-- The space of a new card. -/
def newSpace (p : CardCreateParams) : SpaceKey where
  session := p.session
  kind := p.spaceKind.getD .workspace
  reference := p.spaceRef

theorem cardState_newCard (conn : Conn) (p : CardCreateParams) (boardId columnId position k : Int) :
    cardState (newCard conn p boardId columnId position k) = Life.newCard (newSpace p) k := rfl

theorem cardState_copyCard (conn : Conn) (card : Card) (position k : Int) :
    cardState (copyCard conn card position k) = Life.newCard (SpaceKey.fromCard card) k := rfl

theorem respects_createCard (hE : E .create) (conn : Conn) (p : CardCreateParams) :
    Respects (Via E) (createCard conn p) :=
  respects_createCard_of (fun columnId position =>
    respects_insertCard hE _ (cardState_newCard conn p _ columnId position))
    fun id columnId position =>
      respects_via (keeps_moveCard placeBlind_life conn id columnId position)

theorem respects_duplicateCard (hE : E .create) (conn : Conn) (id : Int) :
    Respects (Via E) (duplicateCard conn id) := by
  refine (readOnly_requireCard id).respects.bind fun card => ?_
  refine Respects.bind (Respects.transaction ?_) fun copyId =>
    (readOnly_requireCard copyId).respects
  refine readOnly_get.respects.bind fun db => ?_
  refine (respects_insertCard hE _ (cardState_copyCard conn card _)).bind fun copyId => ?_
  exact (respects_via (keeps_placeCardInColumnTx placeBlind_life copyId _ _)).bind fun _ =>
    respects_pure copyId

/-! ## Deleting and updating cards -/

/-- No run of the card is open. -/
theorem closed_of_openRunForCard {id : Int} (h : db.openRunForCard id = none) :
    (life db.toTables).Closed id := by
  intro r hr hc
  have hnil : (db.runs.select fun r => r.cardId == id && r.isOpen) = [] :=
    List.getLast?_eq_none_iff.mp h
  cases ho : r.isOpen with
  | false => rfl
  | true =>
      have hmem : r ∈ db.runs.select fun r => r.cardId == id && r.isOpen :=
        Table.mem_select.mpr ⟨hr, by simp [hc, ho]⟩
      rw [hnil] at hmem
      cases hmem

theorem via_deleteCardRow {id : Int} {u : Unit} (hE : E (.remove id))
    (hclosed : (life db.toTables).Closed id)
    (h : deleteCardRow id db = .ok u db') : Via E db db' := by
  have htab := exec_ok.mp h
  refine via_step hE (.remove id hclosed) (life_eq ?_ ?_)
  · rw [htab]
    exact congrArg Table.rows cardStates_delete
  · rw [htab]
    rfl

theorem via_deleteCard {id : Int} (hE : E (.remove id)) (hclosed : (life db.toTables).Closed id) :
    Via E db (finalState (deleteCard id db)) := by
  refine (readOnly_requireCard id).bind_at fun card _ => ?_
  refine bind_at ((exec_atomic _).at fun _ _ h => via_deleteCardRow hE hclosed h) fun _ mid _ => ?_
  exact respects_via (keeps_renumberColumnCardsTx placeBlind_life card.columnId).transaction mid

theorem patchHarness_id (c : Card) (h : Option String) : (patchHarness c h).id = c.id := by
  cases h with
  | none => rfl
  | some v =>
      simp only [patchHarness]
      split
      · rfl
      · split <;> rfl

@[simp] theorem patchCard_id (p : CardUpdateParams) (c : Card) : (patchCard p c).id = c.id :=
  patchHarness_id c p.harness

theorem updateCards_atomic {p : Card → Bool} {f : Card → Card} {hkey} :
    Atomic (updateCards p f hkey) :=
  readOnly_get.bind_atomic fun _ => (exec_atomic _).bind_total fun _ => total_pure _

/-- A card changes space only while none of its runs is open. -/
theorem via_updateCard {conn : Conn} {p : CardUpdateParams} (hE : E (.respace p.id))
    (hspace : (life db.toTables).Closed p.id ∨
      ∀ c, SpaceKey.fromCard (patchCard p c) = SpaceKey.fromCard c) :
    Via E db (finalState (updateCard conn p db)) := by
  refine (readOnly_requireCard p.id).bind_at fun current hcur => ?_
  have hfind := (requireCard_ok.mp hcur).1
  have hid : (patchCard p current).id = p.id :=
    (patchCard_id p current).trans (Table.key_of_find? hfind)
  refine bind_at (updateCards_atomic.at fun n mid h => ?_) fun _ mid _ =>
    (readOnly_requireCard _).respects mid
  obtain ⟨htab, -⟩ := updateCards_ok.mp h
  simp only [hid] at htab
  rcases hspace with hclosed | hsame
  · refine via_step hE (.respace p.id (SpaceKey.fromCard (patchCard p current)) hclosed)
      (life_eq ?_ ?_)
    · rw [htab]
      exact rows_cardStates_update rfl fun _ _ _ => rfl
    · rw [htab]
      rfl
  · refine via_of_eq (life_eq ?_ (by rw [htab]; rfl))
    -- the only row the statement rewrites is the current one
    have hrow : ∀ r ∈ db.cards, r.id = p.id →
        cardState (Card.withSettingsOf (patchCard p current) r conn.now) = cardState r := by
      intro r hr hrid
      have hcurrent : r = current :=
        Table.eq_of_key_eq hr (Table.mem_of_find? hfind)
          (hrid.trans (Table.key_of_find? hfind).symm)
      have hstate : cardState (Card.withSettingsOf (patchCard p current) r conn.now) =
          { cardState r with space := SpaceKey.fromCard (patchCard p current) } := rfl
      rw [hstate, hsame, hcurrent]
      rfl
    rw [htab]
    exact (rows_cardStates_update (g := id) rfl hrow).trans (by simp)

/-! ## Enqueueing -/

/-- An enqueued run is the only open run of its card, so the card had none. -/
theorem closed_of_insert {cardId : Int} {p : EnqueueRun} (mid : Db)
    (hruns : mid.runs.rows = db.runs.rows ++ [queuedRun cardId p db.runs.nextKey]) :
    (life db.toTables).Closed cardId := by
  intro r hr hc
  have hold : r ∈ mid.runs := Table.mem_def.mpr (hruns ▸ List.mem_append_left _ hr)
  have hnew : queuedRun cardId p db.runs.nextKey ∈ mid.runs := Table.mem_def.mpr (by simp [hruns])
  cases ho : r.isOpen with
  | false => rfl
  | true =>
      have heq := Db.open_run_unique hold hnew hc ho rfl
      have hlt := Table.lt_nextKey hr
      rw [heq] at hlt
      exact absurd hlt (lt_irrefl _)

theorem commits_enqueueRunTx (conn : Conn) {cardId : Int} {p : EnqueueRun}
    (hE : E (.enqueue cardId p)) : Commits (Via E) (enqueueRunTx conn cardId p) := by
  intro db id db' h
  simp only [enqueueRunTx, bind_ok, insertRun_ok, updateCards_ok, refuse_ok, pure_ok] at h
  obtain ⟨runId, mid, ⟨hins, -⟩, _, mid', hfault, n, end', ⟨hupd, rfl⟩, _, _, ⟨hone, rfl⟩, -,
    rfl⟩ := h
  cases lifecycleFault_ok hfault
  have hclosed : (life db.toTables).Closed cardId :=
    @closed_of_insert db cardId p mid (by rw [hins]; rfl)
  have hcards : mid.cards = db.cards := by rw [hins]
  have hcard : ((life db.toTables).cards.find? cardId).isSome := by
    rw [not_not, hcards] at hone
    obtain ⟨c, hc⟩ := List.length_eq_one_iff.mp hone
    have hmem : c ∈ db.cards.select fun c => c.id == cardId := by simp [hc]
    obtain ⟨hin, hid⟩ := Table.mem_select.mp hmem
    have hfind := Table.find?_key hin
    rw [key_card, beq_iff_eq.mp hid] at hfind
    simp [hfind]
  refine via_step hE (.enqueue cardId p hclosed hcard) (life_eq ?_ ?_)
  · rw [hupd, hins]
    exact rows_cardStates_update rfl fun _ _ _ => rfl
  · rw [hupd, hins]
    rfl

theorem respects_enqueueRunUow (conn : Conn) {p : EnqueueRun} (hE : E (.enqueue p.cardId p)) :
    Respects (Via E) (enqueueRunUow conn p) := by
  refine (readOnly_requireCard _).respects.bind fun card =>
    (readOnly_requireColumn _).respects.bind fun column => ?_
  refine (readOnly_refuse _ _).respects.bind fun _ => ?_
  exact (commits_enqueueRunTx conn hE).transaction.bind fun id => (readOnly_getRun id).respects

theorem commits_placeCardInColumnTx (id column : Int) (position : Option Int) :
    Commits (Via E) (placeCardInColumnTx id column position) :=
  (respects_via (keeps_placeCardInColumnTx placeBlind_life id column position)).commits

theorem commits_renumberColumnCardsTx (column : Int) :
    Commits (Via E) (renumberColumnCardsTx column) :=
  (respects_via (keeps_renumberColumnCardsTx placeBlind_life column)).commits

theorem commits_updateCards {p : Card → Bool} {f : Card → Card} {hkey}
    (hf : ∀ c, cardState (f c) = cardState c) :
    Commits (Via E) (updateCards p f hkey) := (respects_via (keeps_life_updateCards hf)).commits

theorem respects_createCardAndEnqueueUow (conn : Conn) (p : CardCreateParams) {run : EnqueueRun}
    (hE : E .create) (hE' : ∀ id, E (.enqueue id run)) :
    Respects (Via E) (createCardAndEnqueueUow conn p run) := by
  refine (readOnly_getBoard _).respects.bind fun _ =>
    (readOnly_defaultColumnId _).respects.bind fun columnId => ?_
  refine (readOnly_requireColumn _).respects.bind fun _ =>
    (readOnly_refuse _ _).respects.bind fun _ => ?_
  refine (readOnly_refuse _ _).respects.bind fun _ => readOnly_get.respects.bind fun db => ?_
  refine Respects.bind (Commits.transaction ?_) fun ids =>
    (readOnly_requireCard ids.1).respects.bind fun _ => (readOnly_getRun ids.2).respects.bind
      fun _ => respects_pure _
  refine (respects_insertCard hE _ (cardState_newCard conn p _ _ _)).commits.bind fun cardId => ?_
  have henqueue : Commits (Via E) (do
      let runId ← enqueueRunTx conn cardId run
      pure (cardId, runId)) :=
    (commits_enqueueRunTx conn (hE' cardId)).bind fun _ => commits_pure _
  exact commits_ite ((commits_placeCardInColumnTx _ _ _).bind fun _ => henqueue) henqueue

theorem respects_moveCardAndEnqueueUow (conn : Conn) (id column : Int) (position : Option Int)
    {run : EnqueueRun} (hE : E (.enqueue id run)) :
    Respects (Via E) (moveCardAndEnqueueUow conn id column position run) := by
  refine (readOnly_requireCard id).respects.bind fun card =>
    (readOnly_requireColumn column).respects.bind fun _ => ?_
  refine (readOnly_refuse _ _).respects.bind fun _ =>
    (readOnly_refuse _ _).respects.bind fun _ => ?_
  refine readOnly_get.respects.bind fun db => (readOnly_refuse _ _).respects.bind fun _ => ?_
  refine Respects.bind (Commits.transaction ?_) fun runId =>
    (readOnly_requireCard id).respects.bind fun _ => (readOnly_getRun runId).respects.bind fun _ =>
      respects_pure _
  refine Commits.bind (commits_updateCards fun _ => rfl) fun _ => ?_
  refine (commits_placeCardInColumnTx _ _ _).bind fun _ => ?_
  have henqueue := commits_enqueueRunTx conn hE
  exact commits_ite ((commits_renumberColumnCardsTx _).bind fun _ => henqueue) henqueue

theorem respects_transferCardAndEnqueueUow (conn : Conn) (id board column : Int)
    (position : Option Int) {run : EnqueueRun} (hE : E (.enqueue id run)) :
    Respects (Via E) (transferCardAndEnqueueUow conn id board column position run) := by
  refine (readOnly_requireCard id).respects.bind fun card =>
    (readOnly_getBoard board).respects.bind fun _ => ?_
  refine (readOnly_requireColumn column).respects.bind fun _ => ?_
  refine (readOnly_refuse _ _).respects.bind fun _ =>
    (readOnly_refuse _ _).respects.bind fun _ => ?_
  refine readOnly_get.respects.bind fun db => (readOnly_refuse _ _).respects.bind fun _ => ?_
  refine Respects.bind (Commits.transaction ?_) fun runId =>
    (readOnly_requireCard id).respects.bind fun _ => (readOnly_getRun runId).respects.bind fun _ =>
      respects_pure _
  refine Commits.bind (commits_updateCards fun _ => rfl) fun _ => ?_
  refine (commits_placeCardInColumnTx _ _ _).bind fun _ => ?_
  exact (commits_renumberColumnCardsTx _).bind fun _ => commits_enqueueRunTx conn hE

end HerdrBoard.Lifecycle
