import HerdrBoard.Projects.Archiving
import HerdrBoard.Lifecycle.Runs

/-!
# Open runs and what is archived

A card is sheltered if neither it nor its board nor its project is archived. Which operations of the
store open runs, and that the cards whose runs are open stay sheltered. -/

open Lib HerdrBoard.Core

namespace HerdrBoard.Core.Tables

/-- The cards, with their boards and whether they are archived. -/
def homes (t : Tables) : List (Int × Int × Bool) :=
  t.cards.rows.map fun c => (c.id, c.boardId, c.archivedAt.isSome)

/-- The cards of the runs, with whether the run is open. -/
def occupants (t : Tables) : List (Int × Bool) := t.runs.rows.map fun r => (r.cardId, r.isOpen)

end HerdrBoard.Core.Tables

namespace HerdrBoard.Lifecycle

def tenancy (t : Tables) :
    List (Int × Int × Bool) × (List (Int × Bool) × List (Int × Int × Bool)) × List (Int × Bool) :=
  (t.homes, t.sites, t.occupants)

variable {t t' t'' : Tables} {C : Int → Prop} {c b P : Int}

def Sheltered (t : Tables) (c : Int) : Prop :=
  ∃ b P, (c, b, false) ∈ t.homes ∧ t.BoardIs b P false ∧ t.ProjectIs P false

/-- The card has an open run. -/
def OpenOn (t : Tables) (c : Int) : Prop := (c, true) ∈ t.occupants

def AllSheltered (t : Tables) : Prop := ∀ c, OpenOn t c → Sheltered t c

theorem openOn_iff : OpenOn t c ↔ ∃ r ∈ t.runs, r.cardId = c ∧ r.isOpen = true := by
  simp [OpenOn, Tables.occupants, Table.mem_def]

theorem mem_homes {a : Bool} :
    (c, b, a) ∈ t.homes ↔
      ∃ card ∈ t.cards, card.id = c ∧ card.boardId = b ∧ card.archivedAt.isSome = a := by
  simp [Tables.homes, Table.mem_def]

/-- New runs open on the cards of `C` only, and the cards that matter stay sheltered. -/
structure Calm (C : Int → Prop) (t t' : Tables) : Prop where
  runs : ∀ c, OpenOn t' c → OpenOn t c ∨ C c
  cards : ∀ c, OpenOn t' c ∨ C c → Sheltered t c → Sheltered t' c

theorem Calm.refl (C : Int → Prop) (t : Tables) : Calm C t t := ⟨fun _ => .inl, fun _ _ => id⟩

theorem Calm.trans (h : Calm C t t') (h' : Calm C t' t'') : Calm C t t'' where
  runs c hc := (h'.runs c hc).elim (h.runs c) .inr
  cards c hc hs := h'.cards c hc (h.cards c (hc.elim (h'.runs c) .inr) hs)

theorem Calm.allSheltered (h : Calm C t t') (hC : ∀ c, C c → Sheltered t c) (hs : AllSheltered t) :
    AllSheltered t' := by
  intro c hc
  exact h.cards c (.inl hc) ((h.runs c hc).elim (hs c) (hC c))

/-- A card that had an open run already does not count as new. -/
theorem Calm.absorb (h : Calm C t t') (hC : ∀ c, C c → OpenOn t c) {C' : Int → Prop}
    (hC' : ∀ c, C' c → C c) : Calm C' t t' where
  runs c hc := .inl ((h.runs c hc).elim id (hC c))
  cards c hc := h.cards c (hc.imp id (hC' c))

theorem sheltered_congr (hhomes : t'.homes = t.homes) (hsites : t'.sites = t.sites) :
    Sheltered t' c ↔ Sheltered t c := by
  simp only [Sheltered, Tables.BoardIs, Tables.ProjectIs, hhomes, hsites]

theorem calm_of_runs (hhomes : t'.homes = t.homes) (hsites : t'.sites = t.sites)
    (hruns : ∀ c, OpenOn t' c → OpenOn t c ∨ C c) : Calm C t t' :=
  ⟨hruns, fun _ _ => (sheltered_congr hhomes hsites).mpr⟩

theorem calm_of_tenancy (h : tenancy t' = tenancy t) : Calm C t t' := by
  simp only [tenancy, Prod.mk.injEq] at h
  refine calm_of_runs h.1 h.2.1 fun c hc => .inl ?_
  unfold OpenOn at hc ⊢
  rwa [h.2.2] at hc

/-- The same for whole stores. -/
def CalmDb (C : Int → Prop) (db db' : Db) : Prop := Calm C db.toTables db'.toTables

instance (C : Int → Prop) : Std.Refl (CalmDb C) := ⟨fun db => .refl C db.toTables⟩

instance (C : Int → Prop) : IsTrans Db (CalmDb C) := ⟨fun _ _ _ h h' => h.trans h'⟩

theorem respects_calm {α : Type} {x : StoreM α} (h : KeepsTables tenancy x) :
    Respects (CalmDb C) x :=
  h.mono fun _ _ hst => calm_of_tenancy hst

/-! ## Statements -/

theorem commentBlind_tenancy : CommentBlind tenancy := fun _ _ _ => rfl

theorem columnBlind_tenancy : ColumnBlind tenancy := fun _ _ => rfl

/-- A card after an update, in its place. -/
theorem mem_homes_update {p : Card → Bool} {f : Card → Card} (hkey) {card : Card}
    (hcard : card ∈ t.cards) :
    (card.id, (if p card then f card else card).boardId,
      (if p card then f card else card).archivedAt.isSome) ∈
      ({ t with cards := t.cards.update p f hkey } : Tables).homes := by
  have hid : (if p card then f card else card).id = card.id := by
    split
    · exact hkey card
    · rfl
  have hmem : (if p card then f card else card) ∈ t.cards.update p f hkey :=
    Table.mem_update.mpr ⟨card, hcard, rfl⟩
  exact mem_homes.mpr ⟨_, hmem, hid, rfl, rfl⟩

/-- Writing cards without moving or archiving them. -/
theorem homes_update {p : Card → Bool} {f : Card → Card} {hkey}
    (hf : ∀ c, (f c).boardId = c.boardId ∧ (f c).archivedAt = c.archivedAt) :
    ({ t with cards := t.cards.update p f hkey } : Tables).homes = t.homes := by
  simp only [Tables.homes]
  rw [Table.map_rows_update]
  intro c _
  have hid : (f c).id = c.id := hkey c
  simp [hid, hf]

theorem tenancy_updateCards {p : Card → Bool} {f : Card → Card} {hkey}
    (hf : ∀ c, (f c).boardId = c.boardId ∧ (f c).archivedAt = c.archivedAt) :
    tenancy { t with cards := t.cards.update p f hkey } = tenancy t :=
  congrArg (fun homes => (homes, t.sites, t.occupants)) (homes_update hf)

theorem placeBlind_tenancy : PlaceBlind tenancy := by
  intro t p f hkey hf
  refine tenancy_updateCards fun c => ?_
  obtain ⟨_, _, _, hc⟩ := hf c
  rw [hc]
  exact ⟨rfl, rfl⟩

theorem keeps_tenancy_updateCards {p : Card → Bool} {f : Card → Card} {hkey}
    (hf : ∀ c, (f c).boardId = c.boardId ∧ (f c).archivedAt = c.archivedAt) :
    KeepsTables tenancy (updateCards p f hkey) := keeps_updateCards fun _ => tenancy_updateCards hf

theorem keeps_tenancy_updateRuns {p : Run → Bool} {f : Run → Run} {hkey}
    (hf : ∀ r, (f r).cardId = r.cardId ∧ (f r).isOpen = r.isOpen) :
    KeepsTables tenancy (updateRuns p f hkey) := by
  refine keeps_exec fun t => ?_
  have hruns : ({ t with runs := t.runs.update p f hkey } : Tables).occupants = t.occupants := by
    simp only [Tables.occupants]
    rw [Table.map_rows_update]
    intro r _
    simp [hf]
  exact congrArg (fun occupants => (t.homes, t.sites, occupants)) hruns

/-- Runs only end. -/
theorem calm_updateRuns {p : Run → Bool} {f : Run → Run} {hkey}
    (hf : ∀ r, (f r).cardId = r.cardId ∧ ((f r).isOpen = true → r.isOpen = true)) :
    Respects (CalmDb C) (updateRuns p f hkey) := by
  refine (exec_atomic _).respects fun db _ db' h => ?_
  have htab := updateRuns_ok.mp h
  unfold CalmDb
  rw [htab]
  refine calm_of_runs rfl rfl fun c hc => .inl ?_
  obtain ⟨r', hr', hcard, hopen⟩ := openOn_iff.mp hc
  obtain ⟨r, hr, rfl⟩ := Table.mem_update.mp (show r' ∈ db.runs.update p f hkey from hr')
  refine openOn_iff.mpr ⟨r, hr, ?_⟩
  by_cases hp : p r = true
  · rw [if_pos hp] at hcard hopen
    exact ⟨(hf r).1.symm.trans hcard, (hf r).2 hopen⟩
  · rw [if_neg hp] at hcard hopen
    exact ⟨hcard, hopen⟩

theorem calm_insertRun {row : Int → Run} {hkey} (hrow : ∀ k, C (row k).cardId) :
    Respects (CalmDb C) (insertRun row hkey) := by
  have hatomic : Atomic (insertRun row hkey) :=
    readOnly_get.bind_atomic fun _ => (exec_atomic _).bind_total fun _ => total_pure _
  refine hatomic.respects fun db _ db' h => ?_
  obtain ⟨htab, -⟩ := insertRun_ok.mp h
  unfold CalmDb
  rw [htab]
  refine calm_of_runs rfl rfl fun c hc => ?_
  obtain ⟨r, hr, rfl, hopen⟩ := openOn_iff.mp hc
  rcases Table.mem_insert.mp (show r ∈ db.runs.insert row hkey from hr) with hr | rfl
  · exact .inl (openOn_iff.mpr ⟨r, hr, rfl, hopen⟩)
  · exact .inr (hrow _)

theorem calm_insertCard {row : Int → Card} {hkey} : Respects (CalmDb C) (insertCard row hkey) := by
  refine insertCard_atomic.respects fun db _ db' h => ?_
  obtain ⟨htab, -⟩ := insertCard_ok.mp h
  unfold CalmDb
  rw [htab]
  refine ⟨fun c hc => .inl hc, fun c _ hs => ?_⟩
  obtain ⟨b, P, hhome, hboard, hproject⟩ := hs
  obtain ⟨card, hcard, hrest⟩ := mem_homes.mp hhome
  have hkept : card ∈ db.cards.insert row hkey := Table.mem_insert.mpr (.inl hcard)
  exact ⟨b, P, mem_homes.mpr ⟨card, hkept, hrest⟩, hboard, hproject⟩

theorem calm_deleteCardRow (id : Int) : Respects (CalmDb (fun _ => False)) (deleteCardRow id) := by
  refine (exec_atomic _).respects fun db _ db' h => ?_
  have htab := exec_ok.mp h
  unfold CalmDb
  rw [htab]
  have hruns : ∀ r, r ∈ db.runs.delete (fun r => r.cardId == id) ↔ r ∈ db.runs ∧ r.cardId ≠ id := by
    simp
  refine ⟨fun c hc => .inl ?_, fun c hc hs => ?_⟩
  · obtain ⟨r, hr, hcard, hopen⟩ := openOn_iff.mp hc
    exact openOn_iff.mpr ⟨r, ((hruns r).mp hr).1, hcard, hopen⟩
  · obtain ⟨r, hr, rfl, -⟩ := openOn_iff.mp (hc.resolve_right not_false)
    obtain ⟨b, P, hhome, hboard, hproject⟩ := hs
    obtain ⟨card, hcard, hid, hrest⟩ := mem_homes.mp hhome
    have hkept : card ∈ db.cards.delete fun c => c.id == id :=
      Table.mem_delete.mpr ⟨hcard, by simpa [hid] using ((hruns r).mp hr).2⟩
    exact ⟨b, P, mem_homes.mpr ⟨card, hkept, hid, hrest⟩, hboard, hproject⟩

/-! ## Operations -/

variable {conn : Conn} {db db' : Db}

theorem readOnly_respects_fault (point : LifecycleFaultPoint) {R : Db → Db → Prop} [Std.Refl R] :
    Respects R (lifecycleFault conn point) := (readOnly_lifecycleFault conn point).respects

theorem calm_enqueueRunTx {cardId : Int} (p : EnqueueRun) (hC : C cardId) :
    Respects (CalmDb C) (enqueueRunTx conn cardId p) := by
  refine Respects.bind (calm_insertRun fun _ => hC) fun _ =>
    (readOnly_respects_fault _).bind fun _ => ?_
  refine Respects.bind (respects_calm (keeps_tenancy_updateCards fun _ => ⟨rfl, rfl⟩)) fun _ => ?_
  exact (readOnly_refuse _ _).respects.bind fun _ => respects_pure _

theorem calm_enqueueRunUow (p : EnqueueRun) (hC : C p.cardId) :
    Respects (CalmDb C) (enqueueRunUow conn p) := by
  refine (readOnly_requireCard _).respects.bind fun _ =>
    (readOnly_requireColumn _).respects.bind fun _ => ?_
  refine (readOnly_refuse _ _).respects.bind fun _ => ?_
  exact (calm_enqueueRunTx p hC).transaction.bind fun _ => (readOnly_getRun _).respects

theorem calm_createCard (p : CardCreateParams) : Respects (CalmDb C) (createCard conn p) :=
  respects_createCard_of (fun _ _ => calm_insertCard) fun id columnId position =>
    respects_calm (keeps_moveCard placeBlind_tenancy conn id columnId position)

theorem calm_duplicateCard (id : Int) : Respects (CalmDb C) (duplicateCard conn id) := by
  refine (readOnly_requireCard id).respects.bind fun card => ?_
  refine Respects.bind (Respects.transaction ?_) fun copyId =>
    (readOnly_requireCard copyId).respects
  refine readOnly_get.respects.bind fun db => calm_insertCard.bind fun copyId => ?_
  exact (respects_calm (keeps_placeCardInColumnTx placeBlind_tenancy copyId _ _)).bind fun _ =>
    respects_pure copyId

theorem calm_updateCard (p : CardUpdateParams) : Respects (CalmDb C) (updateCard conn p) := by
  refine (readOnly_requireCard _).respects.bind fun current => ?_
  exact Respects.bind (respects_calm (keeps_tenancy_updateCards fun _ => ⟨rfl, rfl⟩)) fun _ =>
    (readOnly_requireCard _).respects

theorem calm_deleteCard (id : Int) : Respects (CalmDb (fun _ => False)) (deleteCard id) := by
  refine (readOnly_requireCard id).respects.bind fun card =>
    (calm_deleteCardRow id).bind fun _ => ?_
  exact (respects_calm (keeps_renumberColumnCardsTx placeBlind_tenancy _)).transaction

theorem keeps_tenancy_promote (runId : Int) (workspaceId paneId anchorPaneId : Option String)
    (deadline : Option Int) (captured : Option String) :
    KeepsTables tenancy (promoteRunWithAnchorUow conn runId workspaceId paneId anchorPaneId deadline
      captured) := by
  refine Respects.bind (Respects.transaction ?_) fun _ => (readOnly_getRun runId).respects
  refine readOnly_get.respects.bind fun db => (readOnly_okOr _ _).respects.bind fun run => ?_
  refine Respects.bind (keeps_tenancy_updateRuns fun _ => ⟨rfl, rfl⟩) fun _ =>
    (readOnly_respects_fault _).bind fun _ => ?_
  refine respects_ite (fun _ => (readOnly_respects_fault _).bind fun _ => ?_) fun _ => ?_
  all_goals exact Respects.bind (keeps_tenancy_updateCards fun _ => ⟨rfl, rfl⟩) fun _ =>
    respects_pure ()

/-! ## Statuses and timeouts -/

theorem keeps_tenancy_setCardStatus (id : Int) (status : CardStatus) :
    KeepsTables tenancy (setCardStatus conn id status) :=
  (readOnly_refuse _ _).respects.bind fun _ =>
    Respects.bind (keeps_tenancy_updateCards fun _ => ⟨rfl, rfl⟩) fun _ =>
    (readOnly_requireCard id).respects

theorem keeps_tenancy_setCardAwaiting (id : Int) (reason : AwaitingReason) :
    KeepsTables tenancy (setCardAwaiting conn id reason) :=
  Respects.bind (keeps_tenancy_updateCards fun _ => ⟨rfl, rfl⟩) fun _ =>
    (readOnly_requireCard id).respects

theorem keeps_tenancy_pauseRunTimeoutUow (cardId : Int) (reason : AwaitingReason) (nowMs : Int) :
    KeepsTables tenancy (pauseRunTimeoutUow conn cardId reason nowMs) := by
  refine Respects.bind (Respects.transaction ?_) fun _ => (readOnly_requireCard cardId).respects
  exact Respects.bind (keeps_tenancy_updateCards fun _ => ⟨rfl, rfl⟩) fun _ =>
    keeps_tenancy_updateRuns fun _ => ⟨rfl, rfl⟩

theorem keeps_tenancy_resumeRunTimeoutUow (cardId : Int) (status : CardStatus) (nowMs : Int) :
    KeepsTables tenancy (resumeRunTimeoutUow conn cardId status nowMs) := by
  have hcard : KeepsTables tenancy (do
      let _ ← updateCards (fun c => c.id == cardId) fun c =>
        { c with status := status, awaitingReason := none, updatedAt := conn.now }
      pure ()) := Respects.bind (keeps_tenancy_updateCards fun _ => ⟨rfl, rfl⟩) fun _ =>
        respects_pure ()
  refine (readOnly_refuse _ _).respects.bind fun _ => ?_
  refine Respects.bind (Respects.transaction ?_) fun _ => (readOnly_requireCard cardId).respects
  refine readOnly_get.respects.bind fun db => ?_
  dsimp only
  split
  · exact Respects.bind (keeps_tenancy_updateRuns fun _ => ⟨rfl, rfl⟩) fun _ => hcard
  · exact hcard

/-! ## Finalizing -/

/-- The next run of a finalization is of the same card. -/
theorem calm_insertNext {cardId : Int} {next : Option EnqueueRun}
    (hnext : ∀ n, next = some n → n.cardId = cardId)
    (hC : C cardId) : Respects (CalmDb C) (insertNext cardId next) := by
  cases next with
  | none => exact respects_pure none
  | some n =>
      have hcard : C n.cardId := by rwa [hnext n rfl]
      refine Respects.bind (calm_insertRun fun _ => hcard) fun _ => ?_
      exact Respects.bind (respects_calm (keeps_tenancy_updateCards fun _ => ⟨rfl, rfl⟩)) fun _ =>
        respects_pure _

theorem checkNext_cardId {cardId : Int} {next : Option EnqueueRun} {u : Unit}
    (h : checkNext cardId next db = .ok u db') : ∀ n, next = some n → n.cardId = cardId := by
  rintro n rfl
  simp only [checkNext, bind_ok, refuse_ok] at h
  obtain ⟨_, _, ⟨hcard, -⟩, -⟩ := h
  exact not_not.mp hcard

theorem calm_finalizeRunTx (p : FinalizeRun) :
    Respects (CalmDb (fun _ => False)) (finalizeRunTx conn p) := by
  intro db
  refine readOnly_get.bind_at fun db' hget => ?_
  obtain ⟨rfl, -⟩ := get_ok.mp hget
  refine (readOnly_okOr _ _).bind_at fun run hrun =>
    (readOnly_checkNext _ _).bind_at fun _ hcheck => ?_
  obtain ⟨hfind, hopen⟩ := Option.filter_eq_some_iff.mp (okOr_ok.mp hrun).1
  have hoccupied : OpenOn db.toTables run.cardId :=
    openOn_iff.mpr ⟨run, Table.mem_of_find? hfind, rfl, hopen⟩
  -- the card had an open run, so its next one does not count
  refine Calm.absorb (C := fun c => c = run.cardId) ?_ (fun c hc => hc ▸ hoccupied) fun _ h =>
    h.elim
  have hrest : Respects (CalmDb fun c => c = run.cardId) (do
      updateRuns (fun r => r.id == p.runId) fun r =>
        { r with endedAt := some conn.now, outcome := some p.outcome, resultSummary := p.summary }
      lifecycleFault conn .finalizeAfterRunUpdate
      insertComments conn run.cardId p.comments
      applyTransition run.cardId p.targetColumnId
      let _ ← updateCards (fun c => c.id == run.cardId) fun c =>
        { c with
          status := p.finalStatus, awaitingReason := p.finalAwaitingReason, updatedAt := conn.now }
      let nextId ← insertNext run.cardId p.next
      pure (run.cardId, nextId)) := by
    refine Respects.bind (calm_updateRuns fun r => ⟨rfl, fun h => by simp [Run.isOpen] at h⟩)
      fun _ => (readOnly_respects_fault _).bind fun _ => ?_
    refine (respects_calm (keeps_insertComments commentBlind_tenancy conn _ _)).bind fun _ => ?_
    refine (respects_calm (keeps_applyTransition placeBlind_tenancy _ _)).bind fun _ => ?_
    refine Respects.bind (respects_calm (keeps_tenancy_updateCards fun _ => ⟨rfl, rfl⟩)) fun _ => ?_
    exact Respects.bind (calm_insertNext (checkNext_cardId hcheck) rfl) fun _ => respects_pure _
  exact hrest db

theorem calm_finalizeRunUow (p : FinalizeRun) :
    Respects (CalmDb (fun _ => False)) (finalizeRunUow conn p) :=
  (calm_finalizeRunTx p).transaction.bind fun _ => (readOnly_requireCard _).respects.bind fun _ =>
    (readOnly_getRun _).respects.bind fun _ => (readOnly_getNextRun _).respects.bind fun _ =>
      respects_pure _

end HerdrBoard.Lifecycle
