import HerdrBoard.Core.Lemmas.Frames
import HerdrBoard.Core.Db.Runs

/-!
# Units of work that succeed

Without an injected fault the statements of a unit of work break no constraint once its checks
have passed. -/

namespace HerdrBoard.Core

open Lib

/-! ## Statements that break no constraint -/

namespace Tables

variable {t : Tables}

theorem violation_updateRuns {p : Run → Bool} {f : Run → Run} {hkey} (h : t.violation = none)
    (hcard : ∀ r, (f r).cardId = r.cardId) (hcolumn : ∀ r, (f r).columnId = r.columnId)
    (hopen : ∀ r, (f r).isOpen = true → r.isOpen = true) :
    violation { t with runs := t.runs.update p f hkey } = none := by
  obtain ⟨hc, hu, hf⟩ := violation_eq_none.mp h
  have hrows : ∀ r : Run, (if p r then f r else r).cardId = r.cardId ∧
      (if p r then f r else r).columnId = r.columnId ∧
      ((if p r then f r else r).isOpen = true → r.isOpen = true) := by
    intro r
    split
    · exact ⟨hcard r, hcolumn r, hopen r⟩
    · exact ⟨rfl, rfl, id⟩
  refine violation_eq_none.mpr ⟨hc, ?_, ?_⟩
  · obtain ⟨h1, h2, h3, hruns, hrest⟩ := hu
    refine ⟨h1, h2, h3, ?_, hrest⟩
    refine List.pairwise_map.mpr (hruns.imp fun {a b} hab h => hab ?_)
    rw [(hrows a).1, (hrows b).1] at h
    exact ⟨h.1, (hrows a).2.2 h.2.1, (hrows b).2.2 h.2.2⟩
  · obtain ⟨h1, h2, h3, h4, h5, hruns, hrest⟩ := hf
    refine ⟨h1, h2, h3, h4, h5, ?_, hrest⟩
    refine List.forall_mem_map.mpr fun r hr => ?_
    rw [(hrows r).1, (hrows r).2.1]
    exact hruns r hr

theorem violation_updateCards {p : Card → Bool} {f : Card → Card} {hkey} (h : t.violation = none)
    (hboard : ∀ c ∈ t.cards, p c = true → t.hasBoard (f c).boardId = true)
    (hcolumn : ∀ c ∈ t.cards, p c = true → t.hasColumn (f c).columnId = true)
    (hcheck : ∀ c ∈ t.cards, p c = true →
      ((f c).status = .awaiting ↔ (f c).awaitingReason.isSome)) :
    violation { t with cards := t.cards.update p f hkey } = none := by
  obtain ⟨hc, hu, hf⟩ := violation_eq_none.mp h
  have hcards : hasCard { t with cards := t.cards.update p f hkey } = t.hasCard := by
    funext id
    simp [hasCard, Table.find?_update]
  refine violation_eq_none.mpr ⟨?_, hu, ?_⟩
  · refine checkOk_updateCards.mpr fun c hmem => ?_
    split
    · next hp => exact hcheck c hmem hp
    · exact hc c hmem
  · obtain ⟨h1, h2, hrows, h4, h5, h6, hrest⟩ := hf
    refine ⟨h1, h2, ?_, ?_, ?_, ?_, hrest⟩
    · refine List.forall_mem_map.mpr fun c hmem => ?_
      split
      · next hp => exact ⟨hboard c hmem hp, hcolumn c hmem hp⟩
      · exact hrows c hmem
    · rw [hcards]
      exact h4
    · rw [hcards]
      exact h5
    · rw [hcards]
      exact h6

theorem violation_insertRun {row : Int → Run} {hkey} (h : t.violation = none)
    (hcard : t.hasCard (row t.runs.nextKey).cardId = true)
    (hcolumn : t.hasColumn (row t.runs.nextKey).columnId = true)
    (hclosed : ∀ r ∈ t.runs, r.cardId = (row t.runs.nextKey).cardId → r.isOpen = false) :
    violation { t with runs := t.runs.insert row hkey } = none := by
  obtain ⟨hc, hu, hf⟩ := violation_eq_none.mp h
  refine violation_eq_none.mpr ⟨hc, ?_, ?_⟩
  · obtain ⟨h1, h2, h3, hruns, hrest⟩ := hu
    refine ⟨h1, h2, h3, ?_, hrest⟩
    refine List.pairwise_append.mpr ⟨hruns, List.pairwise_singleton _ _, fun r hr s hs hsame => ?_⟩
    cases List.mem_singleton.mp hs
    rw [hclosed r hr hsame.1] at hsame
    exact absurd hsame.2.1 (by simp)
  · obtain ⟨h1, h2, h3, h4, h5, hruns, hrest⟩ := hf
    refine ⟨h1, h2, h3, h4, h5, fun r hr => ?_, hrest⟩
    rcases List.mem_append.mp hr with hr | hr
    · exact hruns r hr
    · cases List.mem_singleton.mp hr
      exact ⟨hcard, hcolumn⟩

theorem violation_insertComment {row : Int → Comment} {history : Int → CommentHistory}
    {hrow hhistory}
    (h : t.violation = none) (hcard : t.hasCard (row t.comments.nextKey).cardId = true)
    (hcomment : (history t.commentHistory.nextKey).commentId = t.comments.nextKey)
    (hhistoryCard : t.hasCard (history t.commentHistory.nextKey).cardId = true) :
    violation { t with
      comments := t.comments.insert row hrow
      commentHistory := t.commentHistory.insert history hhistory } = none := by
  obtain ⟨hc, hu, h1, h2, h3, hcomments, hhist, hrest⟩ := violation_eq_none.mp h
  refine violation_eq_none.mpr ⟨hc, hu, h1, h2, h3, fun m hm => ?_, fun m hm => ?_, hrest⟩
  · rcases List.mem_append.mp hm with hm | hm
    · exact hcomments m hm
    · cases List.mem_singleton.mp hm
      exact hcard
  · have hkeep : ∀ id, t.hasComment id = true → (t.comments.insert row hrow).find? id ≠ none := by
      intro id hid hnone
      obtain ⟨m, hm⟩ := Option.isSome_iff_exists.mp hid
      obtain ⟨hmem, hkey⟩ := Table.find?_eq_some.mp hm
      exact Table.find?_eq_none.mp hnone m (Table.mem_insert.mpr (.inl hmem)) hkey
    rcases List.mem_append.mp hm with hm | hm
    · exact ⟨Option.isSome_iff_ne_none.mpr (hkeep _ (hhist m hm).1), (hhist m hm).2⟩
    · cases List.mem_singleton.mp hm
      refine ⟨Option.isSome_iff_ne_none.mpr fun hnone => ?_, hhistoryCard⟩
      have hnew := Table.find?_eq_none.mp hnone _ (Table.mem_insert_self hrow)
      exact hnew ((hrow _).trans hcomment.symm)

end Tables

/-! ## Statements that succeed -/

variable {conn : Conn} {db : Db}

theorem succeeds_exec {f : Tables → Tables} (h : (f db.toTables).violation = none) :
    Succeeds (exec f) db fun _ db' => db'.toTables = f db.toTables :=
  ⟨(), ⟨f db.toTables, h⟩, exec_total h, rfl⟩

/-- The fault hook, if there is one, lets the point pass. -/
def Conn.Passes (conn : Conn) (point : LifecycleFaultPoint) : Prop :=
  ∀ hook, conn.lifecycleFaultHook = some hook → hook point = .ok ()

theorem passes_of_none (h : conn.lifecycleFaultHook = none) (point : LifecycleFaultPoint) :
    conn.Passes point := by
  intro hook hsome
  rw [h] at hsome
  cases hsome

theorem passes_of_ok {point : LifecycleFaultPoint} {db' : Db} {u : Unit}
    (h : lifecycleFault conn point db = .ok u db') : conn.Passes point := by
  intro hook hsome
  rw [lifecycleFault, hsome] at h
  exact (fromExcept_ok.mp h).1

theorem lifecycleFault_run {point : LifecycleFaultPoint} (h : conn.Passes point) :
    lifecycleFault conn point db = .ok () db := by
  unfold lifecycleFault
  cases hsome : conn.lifecycleFaultHook with
  | some hook => exact fromExcept_ok.mpr ⟨h hook hsome, rfl⟩
  | none => rfl

theorem succeeds_updateRuns {p : Run → Bool} {f : Run → Run} {hkey}
    (hcard : ∀ r, (f r).cardId = r.cardId) (hcolumn : ∀ r, (f r).columnId = r.columnId)
    (hopen : ∀ r, (f r).isOpen = true → r.isOpen = true) :
    Succeeds (updateRuns p f hkey) db fun _ db' =>
      db'.toTables = { db.toTables with runs := db.runs.update p f hkey } :=
  succeeds_exec (Tables.violation_updateRuns db.sound hcard hcolumn hopen)

theorem succeeds_updateCards {p : Card → Bool} {f : Card → Card} {hkey}
    (hboard : ∀ c ∈ db.cards, p c = true → db.hasBoard (f c).boardId = true)
    (hcolumn : ∀ c ∈ db.cards, p c = true → db.hasColumn (f c).columnId = true)
    (hcheck : ∀ c ∈ db.cards, p c = true →
      ((f c).status = .awaiting ↔ (f c).awaitingReason.isSome)) :
    Succeeds (updateCards p f hkey) db fun _ db' =>
      db'.toTables = { db.toTables with cards := db.cards.update p f hkey } := by
  refine succeeds_get_bind ?_
  refine (succeeds_exec (Tables.violation_updateCards db.sound hboard hcolumn hcheck)).bind
    fun _ db' _ hdb => ?_
  exact succeeds_pure hdb

theorem hasBoard_of_mem {c : Card} (hc : c ∈ db.cards) : db.hasBoard c.boardId = true :=
  (db.foreignKeysOk.2.2.1 c hc).1

theorem hasColumn_of_mem {c : Card} (hc : c ∈ db.cards) : db.hasColumn c.columnId = true :=
  (db.foreignKeysOk.2.2.1 c hc).2

/-- A card that stays in its place. -/
theorem succeeds_updateCards_here {p : Card → Bool} {f : Card → Card} {hkey}
    (hboard : ∀ c, (f c).boardId = c.boardId) (hcolumn : ∀ c, (f c).columnId = c.columnId)
    (hcheck : ∀ c, (f c).status = .awaiting ↔ (f c).awaitingReason.isSome) :
    Succeeds (updateCards p f hkey) db fun _ db' =>
      db'.toTables = { db.toTables with cards := db.cards.update p f hkey } := by
  refine succeeds_updateCards (fun c hc _ => ?_) (fun c hc _ => ?_) fun c _ _ => hcheck c
  · rw [hboard]
    exact hasBoard_of_mem hc
  · rw [hcolumn]
    exact hasColumn_of_mem hc

theorem succeeds_insertRun {row : Int → Run} {hkey}
    (hcard : db.hasCard (row db.runs.nextKey).cardId = true)
    (hcolumn : db.hasColumn (row db.runs.nextKey).columnId = true)
    (hclosed : ∀ r ∈ db.runs, r.cardId = (row db.runs.nextKey).cardId → r.isOpen = false) :
    Succeeds (insertRun row hkey) db fun id db' =>
      db'.toTables = { db.toTables with runs := db.runs.insert row hkey } ∧
        id = db.runs.nextKey := by
  refine succeeds_get_bind ?_
  refine (succeeds_exec (Tables.violation_insertRun db.sound hcard hcolumn hclosed)).bind
    fun _ db' _ hdb => ?_
  exact succeeds_pure ⟨hdb, rfl⟩

theorem succeeds_insertComments {cardId : Int} (h : db.hasCard cardId = true)
    (comments : List (String × String)) :
    Succeeds (insertComments conn cardId comments) db fun _ _ => True := by
  induction comments generalizing db with
  | nil => exact succeeds_pure trivial
  | cons comment comments ih =>
      have hinsert : Succeeds (insertComment conn cardId comment.1 comment.2) db fun _ db' =>
          db'.hasCard cardId = true := by
        refine succeeds_get_bind ?_
        refine (succeeds_exec ?_).bind fun _ db' _ hdb => succeeds_pure ?_
        · exact Tables.violation_insertComment db.sound h rfl h
        · rw [hdb]
          exact h
      exact hinsert.bind fun _ db' _ hcard => ih hcard

/-! ## What a finalization rests on -/

/-- Columns, runs and boards, and the board of each card. -/
def Tables.grounds (t : Tables) : Table Column × Table Run × Table Board × (Int → Option Int) :=
  (t.columns, t.runs, t.boards, fun id => (t.cards.find? id).map Card.boardId)

theorem commentBlind_grounds : CommentBlind Tables.grounds := fun _ _ _ => rfl

theorem grounds_updateCards {t : Tables} {p : Card → Bool} {f : Card → Card} {hkey}
    (hf : ∀ c, (f c).boardId = c.boardId) :
    Tables.grounds { t with cards := t.cards.update p f hkey } = t.grounds := by
  have hcards : (fun id => ((t.cards.update p f hkey).find? id).map Card.boardId) =
      fun id => (t.cards.find? id).map Card.boardId := by
    funext id
    rw [Table.find?_update, Option.map_map]
    congr 1
    funext c
    simp only [Function.comp_apply]
    split
    · exact hf c
    · rfl
  simp only [Tables.grounds, hcards]

theorem placeBlind_grounds : PlaceBlind Tables.grounds := by
  intro t p f hkey hf
  refine grounds_updateCards fun c => ?_
  obtain ⟨_, _, _, hc⟩ := hf c
  rw [hc]

section Grounds

variable {db' : Db}

theorem boardMatches_iff {columnId cardId : Int} : db.boardMatches columnId cardId = true ↔
    ∃ column, db.column? columnId = some column ∧
      (db.card? cardId).map Card.boardId = some column.boardId := by
  simp only [Db.boardMatches, List.any_eq_true, Table.mem_select, beq_iff_eq]
  constructor
  · rintro ⟨column, ⟨hcolumn, rfl⟩, card, ⟨hcard, rfl⟩, hboard⟩
    refine ⟨column, Table.find?_key hcolumn, ?_⟩
    have hfind : db.card? card.id = some card := Table.find?_key hcard
    rw [hfind, Option.map_some, hboard]
  · rintro ⟨column, hcolumn, hboard⟩
    obtain ⟨card, hcard, hboard⟩ := Option.map_eq_some_iff.mp hboard
    exact ⟨column, Table.find?_eq_some.mp hcolumn, card, Table.find?_eq_some.mp hcard, hboard⟩

/-- Whether a column is on the board of a card depends on nothing else. -/
theorem boardMatches_of_same (hcolumns : db'.columns = db.columns)
    (hboards : ∀ id, (db'.card? id).map Card.boardId = (db.card? id).map Card.boardId)
    (columnId cardId : Int) :
    db'.boardMatches columnId cardId = db.boardMatches columnId cardId := by
  rw [Bool.eq_iff_iff, boardMatches_iff, boardMatches_iff, hboards, Db.column?,
    Db.column?, hcolumns]

theorem boardMatches_congr (h : db'.toTables.grounds = db.toTables.grounds)
    (columnId cardId : Int) : db'.boardMatches columnId cardId = db.boardMatches columnId cardId :=
  boardMatches_of_same (congrArg Prod.fst h)
    (fun id => congrFun (congrArg (fun g => g.2.2.2) h) id) columnId cardId

theorem hasCard_of_boardMatches {columnId cardId : Int}
    (h : db.boardMatches columnId cardId = true) : db.hasCard cardId = true := by
  obtain ⟨column, -, hboard⟩ := boardMatches_iff.mp h
  obtain ⟨card, hcard, -⟩ := Option.map_eq_some_iff.mp hboard
  exact Option.isSome_iff_exists.mpr ⟨card, hcard⟩

theorem hasColumn_of_boardMatches {columnId cardId : Int}
    (h : db.boardMatches columnId cardId = true) : db.hasColumn columnId = true := by
  obtain ⟨column, hcolumn, -⟩ := boardMatches_iff.mp h
  exact Option.isSome_iff_exists.mpr ⟨column, hcolumn⟩

theorem hasCard_congr (h : db'.toTables.grounds = db.toTables.grounds) (id : Int) :
    db'.hasCard id = db.hasCard id := by
  have hboard : (db'.card? id).map Card.boardId = (db.card? id).map Card.boardId :=
    congrFun (congrArg (fun g => g.2.2.2) h) id
  have hsome := congrArg Option.isSome hboard
  rwa [Option.isSome_map, Option.isSome_map] at hsome

end Grounds

/-! ## Finalizing -/

theorem succeeds_renumberColumnCardsTx (columnId : Int) :
    Succeeds (renumberColumnCardsTx columnId) db fun _ _ => True :=
  succeeds_get_bind ((setCardPositions_total _).succeeds db)

theorem succeeds_applyTransition {cardId : Int} {target : Option Int}
    (h : ∀ columnId, target = some columnId → db.boardMatches columnId cardId = true) :
    Succeeds (applyTransition cardId target) db fun _ _ => True := by
  cases target with
  | none => exact succeeds_pure trivial
  | some columnId =>
      have hmatches := h columnId rfl
      obtain ⟨card, hcard⟩ := Option.isSome_iff_exists.mp (hasCard_of_boardMatches hmatches)
      refine succeeds_get_bind (succeeds_bind_run (refuse_run (by simp [hmatches]) _) ?_)
      refine succeeds_bind_run (requireCard_run hcard) ?_
      refine (succeeds_updateCards (by intro c hc _; exact @hasBoard_of_mem db c hc)
        (by intro c _ _; exact hasColumn_of_boardMatches hmatches)
          (by intro c hc _; exact @Db.awaiting_iff db c hc)).bind ?_
      intro _ moved _ _
      refine succeeds_get_bind
        (((setCardPositions_total _).succeeds moved).bind fun _ placed _ _ => ?_)
      exact succeeds_ite (fun _ => succeeds_renumberColumnCardsTx _) fun _ => succeeds_pure trivial

theorem succeeds_insertNext {cardId : Int} {next : Option EnqueueRun}
    (hclosed : ∀ r ∈ db.runs, r.cardId = cardId → r.isOpen = false)
    (hnext : ∀ p, next = some p → p.cardId = cardId ∧ db.boardMatches p.columnId cardId = true) :
    Succeeds (insertNext cardId next) db fun _ _ => True := by
  cases next with
  | none => exact succeeds_pure trivial
  | some p =>
      obtain ⟨hsame, hmatches⟩ := hnext p rfl
      refine (succeeds_insertRun ?_ (hasColumn_of_boardMatches hmatches) ?_).bind
        fun id inserted _ _ => ?_
      · show db.hasCard p.cardId = true
        rw [hsame]
        exact hasCard_of_boardMatches hmatches
      · intro r hr hcard
        exact hclosed r hr (hcard.trans hsame)
      · refine (succeeds_updateCards_here (by intro c; rfl) (by intro c; rfl)
          (by intro c; simp)).bind fun _ _ _ _ => ?_
        exact succeeds_pure trivial

/-- Without a fault, a finalization of an open run goes through once its checks have passed. -/
theorem succeeds_finalizeRunTx {p : FinalizeRun} {run : Run}
    (hpass : conn.Passes .finalizeAfterRunUpdate)
    (hrun : db.run? p.runId = some run) (hopen : run.isOpen = true)
    (hreason : p.finalStatus = .awaiting ↔ p.finalAwaitingReason.isSome)
    (htarget : ∀ columnId, p.targetColumnId = some columnId →
      db.boardMatches columnId run.cardId = true)
    (hnext : ∀ next, p.next = some next →
      next.cardId = run.cardId ∧ db.boardMatches next.columnId run.cardId = true) :
    Succeeds (finalizeRunTx conn p) db fun ids _ => ids.1 = run.cardId := by
  have hmem := Table.mem_of_find? hrun
  have hid : run.id = p.runId := Table.key_of_find? hrun
  have hfound : (db.run? p.runId).filter Run.isOpen = some run := by simp [hrun, hopen]
  have hcheck : checkNext run.cardId p.next db = .ok () db := by
    cases hn : p.next with
    | none => rfl
    | some next =>
        obtain ⟨hsame, hmatches⟩ := hnext next hn
        simp [checkNext, hsame, hmatches]
  refine succeeds_get_bind (succeeds_bind_run (okOr_run hfound _) (succeeds_bind_run hcheck ?_))
  -- the run ends
  refine (succeeds_updateRuns (by intro r; rfl) (by intro r; rfl) (by intro r hr; cases hr)).bind
    fun _ ended _ hended => ?_
  have hcard : ended.hasCard run.cardId = true := by
    have : db.hasCard run.cardId = true := (db.foreignKeysOk.2.2.2.2.2.1 run hmem).1
    rw [hended]
    exact this
  have hmatches : ∀ columnId cardId,
      ended.boardMatches columnId cardId = db.boardMatches columnId cardId := by
    intro columnId cardId
    simp only [Db.boardMatches, hended]
  have hclosed : ∀ r ∈ ended.runs, r.cardId = run.cardId → r.isOpen = false := by
    intro r hr hcardId
    rw [hended] at hr
    obtain ⟨old, hold, rfl⟩ := List.mem_map.mp hr
    by_cases hsame : old.id = p.runId
    · simp [hsame, Run.isOpen]
    · simp only [hsame, beq_iff_eq, if_false] at hcardId ⊢
      by_contra hne
      have heq := Db.open_run_unique hold hmem hcardId (by simpa using hne) hopen
      exact hsame (heq ▸ hid)
  refine succeeds_bind_run (lifecycleFault_run hpass) ?_
  -- what follows keeps what the checks rest on
  refine (succeeds_insertComments hcard p.comments).bind fun _ noted hnoted _ => ?_
  have hnotedGrounds :=
    (keeps_insertComments commentBlind_grounds conn run.cardId p.comments).ok hnoted
  refine (succeeds_applyTransition fun columnId htargetId => ?_).bind fun _ moved hmoved _ => ?_
  · rw [boardMatches_congr hnotedGrounds, hmatches]
    exact htarget columnId htargetId
  have hmovedGrounds : moved.toTables.grounds = ended.toTables.grounds :=
    ((keeps_applyTransition placeBlind_grounds run.cardId p.targetColumnId).ok hmoved).trans
      hnotedGrounds
  refine (succeeds_updateCards_here (by intro c; rfl) (by intro c; rfl)
    (by intro c; exact hreason)).bind fun _ settled _ hsettled => ?_
  have hsettledGrounds : settled.toTables.grounds = ended.toTables.grounds := by
    rw [hsettled]
    exact (grounds_updateCards (by intro c; rfl)).trans hmovedGrounds
  have hruns : settled.runs = ended.runs := congrArg (fun g => g.2.1) hsettledGrounds
  refine (@succeeds_insertNext settled run.cardId p.next ?_ fun next hsome => ?_).bind
    fun _ _ _ _ => succeeds_pure rfl
  · rw [hruns]
    exact hclosed
  · rw [boardMatches_congr hsettledGrounds, hmatches]
    exact hnext next hsome

end HerdrBoard.Core
