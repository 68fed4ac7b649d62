import HerdrBoard.Lifecycle.Conversations

/-!
# Auto hops

The next run of a finalization is inserted by statements of its own. They differ from those of a
plain enqueue in the conversation of the card. -/

open Lib HerdrBoard.Core

namespace HerdrBoard.Lifecycle

variable {conn : Conn} {db db' : Db} {p : FinalizeRun} {run : Run} {next : EnqueueRun}

/-! ## Two ways to the next run -/

/-- Finalize a run without its next one, and enqueue that one. -/
def finalizeThenEnqueue (conn : Conn) (p : FinalizeRun) (next : EnqueueRun) : StoreM Run := do
  let _ ← finalizeRunUow conn { p with next := none }
  enqueueRunUow conn next

/-- What a finalization writes of a card. -/
def Db.cardFace (db : Db) (id : Int) :
    Option (CardStatus × Int × Int × Option AwaitingReason × Option String) :=
  (db.card? id).map fun c => (c.status, c.columnId, c.position, c.awaitingReason, c.sessionId)

/-- The two stores have the same runs and the same card. -/
structure SameOutcome (cardId : Int) (db db' : Db) : Prop where
  card : Db.cardFace db' cardId = Db.cardFace db cardId
  runs : db'.runs = db.runs

/-- The finalization goes through, apart from its next run. -/
structure Accepts (conn : Conn) (db : Db) (run : Run) (p : FinalizeRun) : Prop where
  passes : conn.Passes .finalizeAfterRunUpdate
  reason : p.finalStatus = .awaiting ↔ p.finalAwaitingReason.isSome
  target : ∀ columnId, p.targetColumnId = some columnId → db.boardMatches columnId run.cardId = true

/-- The next run is one that a plain enqueue takes, in the conversation that the card
already has. -/
structure Continues (conn : Conn) (db : Db) (run : Run) (next : EnqueueRun) : Prop where
  card : next.cardId = run.cardId
  column : db.boardMatches next.columnId run.cardId = true
  passes : conn.Passes .enqueueAfterRunInsert
  conversation : KeepsConversation db run.cardId next

/-! ## A finalization without its next run -/

theorem finalizeRunTx_next {ids : Int × Option Int}
    (hfound : (db.run? p.runId).filter Run.isOpen = some run) :
    finalizeRunTx conn p db = .ok ids db' ↔ ∃ mid, checkNext run.cardId p.next db = .ok () db ∧
      finalizeRunTx conn { p with next := none } db = .ok (run.cardId, none) mid ∧
      insertNext run.cardId p.next mid = .ok ids.2 db' ∧ ids.1 = run.cardId := by
  simp only [finalizeRunTx, bind_ok, get_ok, okOr_ok, pure_ok]
  constructor
  · rintro ⟨_, _, ⟨rfl, rfl⟩, found, _, ⟨hsome, rfl⟩, _, _, hcheck, _, ended, hended, _, _, hfault,
      _, noted, hnoted, _, moved, hmoved, n, settled, hsettled, nextId, _, hins, rfl, rfl⟩
    obtain rfl : run = found := Option.some.inj (hfound.symm.trans hsome)
    cases (readOnly_checkNext _ _).ok hcheck
    exact ⟨settled, hcheck, ⟨_, _, ⟨rfl, rfl⟩, _, _, ⟨hfound, rfl⟩, (), _, rfl, _, ended, hended, _,
      _, hfault, _, noted, hnoted,
      _, moved, hmoved, n, settled, hsettled, none, settled, rfl, rfl, rfl⟩, hins, rfl⟩
  · rintro ⟨mid, hcheck, ⟨_, _, ⟨rfl, rfl⟩, found, _, ⟨hsome, rfl⟩, _, _, hnone, _, ended, hended,
      _, _, hfault, _, noted,
      hnoted, _, moved, hmoved, n, settled, hsettled, nextId, _, hnext, hids, rfl⟩, hins, hid⟩
    obtain rfl : run = found := Option.some.inj (hfound.symm.trans hsome)
    cases (readOnly_checkNext _ _).ok hnone
    obtain ⟨-, rfl⟩ := pure_ok.mp hnext
    exact ⟨_, _, ⟨rfl, rfl⟩, _, _, ⟨hfound, rfl⟩, (), _, hcheck, _, ended, hended, _, _, hfault, _,
      noted, hnoted, _, moved, hmoved, n, settled, hsettled, _, _, hins, Prod.ext hid.symm rfl, rfl⟩

theorem accepts_of_ok {ids : Int × Option Int}
    (hfound : (db.run? p.runId).filter Run.isOpen = some run)
    (h : finalizeRunTx conn { p with next := none } db = .ok ids db') : Accepts conn db run p := by
  simp only [finalizeRunTx, bind_ok, get_ok, okOr_ok, updateRuns_ok, updateCards_ok, pure_ok] at h
  obtain ⟨_, _, ⟨rfl, rfl⟩, found, _, ⟨hsome, rfl⟩, _, _, hnone, _, ended, hended, _, _, hfault, _,
    noted, hnoted, _, moved, hmoved, n, settled, ⟨hsettled, -⟩, -⟩ := h
  obtain rfl : run = found := Option.some.inj (hfound.symm.trans hsome)
  cases (readOnly_checkNext _ _).ok hnone
  have hpasses := passes_of_ok hfault
  cases lifecycleFault_ok hfault
  have hnotedGrounds :=
    (keeps_insertComments commentBlind_grounds conn run.cardId p.comments).ok hnoted
  have hmatches : ∀ columnId,
      noted.boardMatches columnId run.cardId = db.boardMatches columnId run.cardId := by
    intro columnId
    rw [boardMatches_congr hnotedGrounds]
    simp only [Db.boardMatches, hended]
  refine ⟨hpasses, ?_, fun columnId htarget => ?_⟩
  · have hgrounds : moved.toTables.grounds = ended.toTables.grounds :=
      ((keeps_applyTransition placeBlind_grounds run.cardId p.targetColumnId).ok hmoved).trans
        hnotedGrounds
    have hcard : moved.hasCard run.cardId = true := by
      rw [hasCard_congr hgrounds]
      have hmem := Table.mem_of_find? (Option.filter_eq_some_iff.mp hfound).1
      have hthere : db.hasCard run.cardId = true := (db.foreignKeysOk.2.2.2.2.2.1 run hmem).1
      rw [hended]
      exact hthere
    obtain ⟨card, hfind⟩ := Option.isSome_iff_exists.mp hcard
    obtain ⟨hrow, hid⟩ := Table.find?_eq_some.mp hfind
    have hnew :
        { card with
          status := p.finalStatus, awaitingReason := p.finalAwaitingReason, updatedAt := conn.now } ∈
        settled.cards := by
      rw [hsettled, Table.mem_update]
      exact ⟨card, hrow, if_pos (beq_iff_eq.mpr hid)⟩
    exact Db.awaiting_iff hnew
  · rw [htarget] at hmoved
    simp only [applyTransition, bind_ok, get_ok, refuse_ok] at hmoved
    obtain ⟨_, _, ⟨rfl, rfl⟩, _, _, ⟨hpassed, -⟩, -⟩ := hmoved
    rw [← hmatches]
    simpa using hpassed

theorem ok_of_accepts (hrun : db.run? p.runId = some run) (hopen : run.isOpen = true)
    (h : Accepts conn db run p) :
    ∃ mid, finalizeRunTx conn { p with next := none } db = .ok (run.cardId, none) mid := by
  have hfound : (db.run? p.runId).filter Run.isOpen = some run := by simp [hrun, hopen]
  obtain ⟨ids, mid, htx, -⟩ :=
    @succeeds_finalizeRunTx conn db { p with next := none } run h.passes hrun hopen h.reason
      h.target (fun next hnone => nomatch hnone)
  obtain ⟨mid', -, hmid, -⟩ := (finalizeRunTx_next (p := { p with next := none }) hfound).mp htx
  exact ⟨mid', hmid⟩

/-! ## A plain enqueue -/

/-- Without a fault, a run is enqueued for a card without one, in a column of its board. -/
theorem succeeds_enqueueRunUow (hpass : conn.Passes .enqueueAfterRunInsert)
    (hmatches : db.boardMatches next.columnId next.cardId = true)
    (hclosed : ∀ r ∈ db.runs, r.cardId = next.cardId → r.isOpen = false) :
    Succeeds (enqueueRunUow conn next) db fun _ db' =>
      db'.runs = db.runs.insert (queuedRun next.cardId next) ∧
      db'.cards = db.cards.update (fun c => c.id == next.cardId) fun c =>
        { c with
          status := .queued, awaitingReason := none, sessionId := next.sessionId <|> c.sessionId,
                 updatedAt := conn.now } := by
  obtain ⟨column, hcolumn, hboard⟩ := boardMatches_iff.mp hmatches
  obtain ⟨card, hcard, hsame⟩ := Option.map_eq_some_iff.mp hboard
  refine succeeds_bind_run (requireCard_run hcard)
    (succeeds_bind_run (requireColumn_run hcolumn) ?_)
  refine succeeds_bind_run (refuse_run (not_not.mpr hsame) _) ?_
  have htx : Succeeds (enqueueRunTx conn next.cardId next) db fun id db' => id = db.runs.nextKey ∧
      db'.runs = db.runs.insert (queuedRun next.cardId next) ∧
      db'.cards = db.cards.update (fun c => c.id == next.cardId) fun c =>
        { c with
          status := .queued, awaitingReason := none, sessionId := next.sessionId <|> c.sessionId,
                 updatedAt := conn.now } := by
    refine (succeeds_insertRun ?_ (hasColumn_of_boardMatches hmatches) ?_).bind
      fun id inserted _ ⟨hinserted, hid⟩ => ?_
    · exact Option.isSome_iff_exists.mpr ⟨card, hcard⟩
    · exact hclosed
    refine succeeds_bind_run (lifecycleFault_run hpass) ?_
    refine (succeeds_updateCards_here (by intro c; rfl) (by intro c; rfl) (by intro c; simp)).bind
      fun n updated hrun hupdated => ?_
    have hcards : inserted.cards = db.cards := by rw [hinserted]
    have hone : n = 1 := by
      obtain ⟨hmem, hkey⟩ := Table.find?_eq_some.mp hcard
      rw [(updateCards_ok.mp hrun).2, hcards, Table.select_eq_singleton hmem fun c hc => ?_]
      · rfl
      · rw [beq_iff_eq]
        exact ⟨fun hid => Table.eq_of_key_eq hc hmem (hid.trans hkey.symm), fun heq => heq ▸ hkey⟩
    refine succeeds_bind_run (refuse_run (not_not.mpr hone) _) (succeeds_pure ⟨hid, ?_, ?_⟩)
    · rw [hupdated, hinserted]
    · rw [hupdated, hinserted]
  refine htx.transaction.bind fun id db' _ ⟨hid, hruns, hcards⟩ => ?_
  have hfind : db'.run? id = some (queuedRun next.cardId next id) := by
    rw [Db.run?, hruns, hid]
    exact Table.find?_eq_some.mpr ⟨Table.mem_insert_self fun _ => rfl, rfl⟩
  exact ⟨_, db', getRun_run hfind, hruns, hcards⟩

theorem passes_of_enqueued {r : Run} (h : enqueueRunUow conn next db = .ok r db') :
    conn.Passes .enqueueAfterRunInsert := by
  simp only [enqueueRunUow, enqueueRunTx, bind_ok, transaction_ok] at h
  obtain ⟨_, _, -, _, _, -, _, _, -, _, _, ⟨_, _, -, _, _, hfault, -⟩, -⟩ := h
  exact passes_of_ok hfault

/-- An enqueue, committed or not, leaves every run. -/
theorem mem_enqueued {r : Run} (hr : r ∈ db.runs) :
    r ∈ (finalState (enqueueRunUow conn next db)).runs := by
  cases h : enqueueRunUow conn next db with
  | error e t =>
      rw [enqueueRunUow_atomic next _ _ _ h]
      exact hr
  | ok run t =>
      simp only [enqueueRunUow, enqueueRunTx, bind_ok, transaction_ok, requireCard_ok,
        requireColumn_ok, refuse_ok, insertRun_ok, updateCards_ok, pure_ok, getRun_ok] at h
      obtain ⟨_, _, ⟨-, rfl⟩, _, _, ⟨-, rfl⟩, _, _, ⟨-, rfl⟩, _, _, ⟨_, inserted, ⟨hinserted, -⟩, _,
        _, hfault, _, updated, ⟨hupdated, -⟩, _, _, ⟨-, rfl⟩, -, rfl⟩, -, rfl⟩ := h
      cases lifecycleFault_ok hfault
      rw [finalState, hupdated, hinserted, Table.mem_insert]
      exact .inl hr

/-! ## When the two agree -/

/-- A hop inserts the next run without looking at the conversation. -/
theorem insertNext_run {nextId : Option Int} {cardId : Int}
    (h : insertNext cardId (some next) db = .ok nextId db') :
    db'.runs = db.runs.insert (queuedRun next.cardId next) ∧
      db'.cards = db.cards.update (fun c => c.id == cardId) fun c =>
        { c with status := .queued, awaitingReason := none } := by
  simp only [insertNext, bind_ok, insertRun_ok, updateCards_ok, pure_ok] at h
  obtain ⟨_, inserted, ⟨hinserted, -⟩, _, _, ⟨hupdated, -⟩, -, rfl⟩ := h
  rw [hupdated, hinserted]
  exact ⟨rfl, rfl⟩

theorem finalState_finalizeThenEnqueue {mid : Db} {ids : Int × Option Int}
    (h : finalizeRunTx conn { p with next := none } db = .ok ids mid) :
    finalState (finalizeThenEnqueue conn p next db) = finalState (enqueueRunUow conn next mid) := by
  obtain ⟨effects, hok⟩ := finalizeRunUow_of_tx h
  exact congrArg finalState (bind_run hok)

/-- A finalization that is refused alone is refused with its next run as well. -/
theorem refused_both (hfound : (db.run? p.runId).filter Run.isOpen = some run)
    (h : ¬Accepts conn db run p) :
    finalState (finalizeRunUow conn p db) = db ∧
    finalState (finalizeThenEnqueue conn p next db) = db := by
  have hno : ∀ ids mid, finalizeRunTx conn { p with next := none } db ≠ .ok ids mid :=
    fun ids mid hok =>
    h (accepts_of_ok hfound hok)
  constructor
  · refine (finalizeRunUow_atomic p).at (R := fun s t => t = s) fun effects db' hok => ?_
    obtain ⟨ids, htx⟩ := finalizeRunUow_ok hok
    obtain ⟨mid, -, hmid, -⟩ := (finalizeRunTx_next hfound).mp htx
    exact absurd hmid (hno _ _)
  · rw [finalizeThenEnqueue, run_bind]
    cases hok : finalizeRunUow conn { p with next := none } db with
    | ok effects mid =>
        obtain ⟨ids, htx⟩ := finalizeRunUow_ok hok
        exact absurd htx (hno _ _)
    | error e mid => exact finalizeRunUow_atomic _ _ _ _ hok

/-- The next run can be inserted. -/
theorem hop_run {mid : Db} (hrun : db.run? p.runId = some run) (hopen : run.isOpen = true)
    (hnext : p.next = some next) (haccepts : Accepts conn db run p)
    (hcard : next.cardId = run.cardId) (hcolumn : db.boardMatches next.columnId run.cardId = true)
    (hmid : finalizeRunTx conn { p with next := none } db = .ok (run.cardId, none) mid) :
    ∃ nextId, insertNext run.cardId (some next) mid =
      .ok nextId (finalState (finalizeRunUow conn p db)) := by
  have hfound : (db.run? p.runId).filter Run.isOpen = some run := by simp [hrun, hopen]
  obtain ⟨ids, db', htx, -⟩ := @succeeds_finalizeRunTx conn db p run haccepts.passes hrun hopen
    haccepts.reason haccepts.target (by
      intro next' hsome
      cases hnext.symm.trans hsome
      exact ⟨hcard, hcolumn⟩)
  obtain ⟨effects, hok⟩ := finalizeRunUow_of_tx htx
  obtain ⟨mid', -, hmid', hins, -⟩ := (finalizeRunTx_next hfound).mp htx
  cases hmid.symm.trans hmid'
  rw [hok, ← hnext]
  exact ⟨ids.2, hins⟩

/-- A next run that the finalization refuses leaves the run open, where a finalization of its own
has ended it. -/
theorem refused_next {mid : Db} (hrun : db.run? p.runId = some run) (hopen : run.isOpen = true)
    (hnext : p.next = some next)
    (hmid : finalizeRunTx conn { p with next := none } db = .ok (run.cardId, none) mid)
    (hbad : ¬(next.cardId = run.cardId ∧ db.boardMatches next.columnId run.cardId = true)) :
    (finalState (finalizeRunUow conn p db)).runs ≠
      (finalState (finalizeThenEnqueue conn p next db)).runs := by
  have hfound : (db.run? p.runId).filter Run.isOpen = some run := by simp [hrun, hopen]
  have hrefused : finalState (finalizeRunUow conn p db) = db := by
    refine (finalizeRunUow_atomic p).at (R := fun s t => t = s) fun effects db' hok => ?_
    obtain ⟨ids, htx⟩ := finalizeRunUow_ok hok
    obtain ⟨_, hcheck, -⟩ := (finalizeRunTx_next hfound).mp htx
    simp only [hnext, checkNext, bind_ok, refuse_ok, get_ok] at hcheck
    obtain ⟨_, _, ⟨hsame, rfl⟩, _, _, ⟨rfl, rfl⟩, hmatches, -⟩ := hcheck
    exact absurd ⟨not_not.mp hsame, by simpa using hmatches⟩ hbad
  obtain ⟨effects, hok⟩ := finalizeRunUow_of_tx hmid
  obtain ⟨found, hfind, -, hended, -⟩ := finalizeRunUow_ends hok
  cases hrun.symm.trans hfind
  rw [hrefused, finalState_finalizeThenEnqueue hmid]
  intro heq
  have hold : run ∈ (finalState (enqueueRunUow conn next mid)).runs := heq ▸ Table.mem_of_find? hrun
  have hsame := Table.eq_of_key_eq hold (@mem_enqueued conn _ next _ hended) rfl
  rw [hsame] at hopen
  cases hopen

/-- The columns, and the board of each card. -/
def Tables.seats (t : Tables) : Table Column × (Int → Option Int) :=
  (t.columns, fun id => (t.cards.find? id).map Card.boardId)

theorem seats_of_grounds {t t' : Tables} (h : t'.grounds = t.grounds) :
    Tables.seats t' = Tables.seats t :=
  Prod.ext (congrArg (fun g => g.1) h) (congrArg (fun g => g.2.2.2) h)

theorem keeps_seats_finalizeRunTx :
    KeepsTables Tables.seats (finalizeRunTx conn { p with next := none }) := by
  refine readOnly_get.respects.bind fun _ => (readOnly_okOr _ _).respects.bind fun found => ?_
  refine (readOnly_checkNext _ _).respects.bind fun _ =>
    Respects.bind (keeps_exec fun _ => rfl) fun _ => ?_
  refine (readOnly_lifecycleFault _ _).respects.bind fun _ => ?_
  refine Respects.bind (keeps_insertComments (fun _ _ _ => rfl) _ _ _) fun _ => ?_
  refine Respects.bind
    (keeps_applyTransition
      (fun t p f hkey hf => seats_of_grounds (placeBlind_grounds t p f hkey hf)) _ _)
    fun _ => ?_
  refine Respects.bind (keeps_updateCards fun _ =>
    seats_of_grounds (grounds_updateCards (by intro c; rfl))) fun _ => ?_
  exact respects_pure _

/-- What the two ways make of the store, once the finalization has gone through. -/
structure Forked (conn : Conn) (p : FinalizeRun) (run : Run) (next : EnqueueRun) (db mid : Db) :
    Prop where
  hopRuns : (finalState (finalizeRunUow conn p db)).runs =
    mid.runs.insert (queuedRun next.cardId next)
  hopCards : (finalState (finalizeRunUow conn p db)).cards =
    mid.cards.update (fun c => c.id == run.cardId) fun c =>
      { c with status := .queued, awaitingReason := none }
  enqueued : conn.Passes .enqueueAfterRunInsert → ∃ r t, enqueueRunUow conn next mid = .ok r t ∧
    t.runs = mid.runs.insert (queuedRun next.cardId next) ∧
      t.cards = mid.cards.update (fun c => c.id == run.cardId) fun c =>
        { c with
          status := .queued, awaitingReason := none, sessionId := next.sessionId <|> c.sessionId,
                 updatedAt := conn.now }
  conversation : KeepsConversation mid run.cardId next ↔ KeepsConversation db run.cardId next
  card : ∃ card, mid.card? run.cardId = some card

theorem forked {mid : Db} (hrun : db.run? p.runId = some run) (hopen : run.isOpen = true)
    (hnext : p.next = some next) (haccepts : Accepts conn db run p)
    (hcard : next.cardId = run.cardId) (hcolumn : db.boardMatches next.columnId run.cardId = true)
    (hmid : finalizeRunTx conn { p with next := none } db = .ok (run.cardId, none) mid) :
    Forked conn p run next db mid := by
  obtain ⟨nextId, hins⟩ := hop_run hrun hopen hnext haccepts hcard hcolumn hmid
  obtain ⟨hruns, hcards⟩ := insertNext_run hins
  have hclosed := closed_of_insertNext hcard hins
  have hseats := keeps_seats_finalizeRunTx.ok hmid
  have hmatches : mid.boardMatches next.columnId next.cardId = true := by
    rw [hcard, boardMatches_of_same (congrArg Prod.fst hseats) fun id =>
      congrFun (congrArg Prod.snd hseats) id]
    exact hcolumn
  obtain ⟨found, alone, hfind, -, -, -, hfinalized, hnone⟩ := finalizeRunTx_cut hmid
  cases hrun.symm.trans hfind
  obtain ⟨-, rfl⟩ := pure_ok.mp hnone
  refine ⟨hruns, hcards, fun hpass => ?_, keepsConversation_congr ?_, ?_⟩
  · obtain ⟨r, t, hok, htruns, htcards⟩ := succeeds_enqueueRunUow hpass hmatches (hcard ▸ hclosed)
    exact ⟨r, t, hok, htruns, hcard ▸ htcards⟩
  · rw [threads_finalized hfinalized]
    rfl
  · exact Option.isSome_iff_exists.mp (hcard ▸ hasCard_of_boardMatches hmatches)

/-- A hop and a plain enqueue lead to the same card and runs if the next run keeps to the
conversation of the card. -/
theorem sameOutcome_iff (hrun : db.run? p.runId = some run) (hopen : run.isOpen = true)
    (hnext : p.next = some next) :
    SameOutcome run.cardId (finalState (finalizeThenEnqueue conn p next db))
      (finalState (finalizeRunUow conn p db)) ↔
      (Accepts conn db run p → Continues conn db run next) := by
  have hfound : (db.run? p.runId).filter Run.isOpen = some run := by simp [hrun, hopen]
  by_cases haccepts : Accepts conn db run p
  swap
  · obtain ⟨hhop, hplain⟩ := @refused_both conn db p run next hfound haccepts
    rw [hhop, hplain]
    exact iff_of_true ⟨rfl, rfl⟩ fun h => absurd h haccepts
  obtain ⟨mid, hmid⟩ := ok_of_accepts hrun hopen haccepts
  by_cases hgood : next.cardId = run.cardId ∧ db.boardMatches next.columnId run.cardId = true
  swap
  · have hdiffer := refused_next hrun hopen hnext hmid hgood
    exact iff_of_false (fun h => hdiffer h.runs) fun h =>
      hgood ⟨(h haccepts).card, (h haccepts).column⟩
  obtain ⟨hcard, hcolumn⟩ := hgood
  have hforked := forked hrun hopen hnext haccepts hcard hcolumn hmid
  rw [finalState_finalizeThenEnqueue hmid]
  constructor
  · intro hsame _
    have hpass : conn.Passes .enqueueAfterRunInsert := by
      cases hok : enqueueRunUow conn next mid with
      | ok r t => exact passes_of_enqueued hok
      | error e t =>
          -- only the hop has inserted a run
          have hruns := hsame.runs
          rw [hok, finalState, enqueueRunUow_atomic next _ _ _ hok, hforked.hopRuns] at hruns
          have hnew : queuedRun next.cardId next mid.runs.nextKey ∈
              mid.runs.insert (queuedRun next.cardId next) :=
            Table.mem_insert_self fun _ => rfl
          rw [hruns] at hnew
          exact absurd (Table.lt_nextKey hnew) (lt_irrefl _)
    refine ⟨hcard, hcolumn, hpass, ?_⟩
    obtain ⟨r, t, hok, -, hcards⟩ := hforked.enqueued hpass
    obtain ⟨card, hfind⟩ := hforked.card
    have hid : card.id = run.cardId := Table.key_of_find? hfind
    have hface := hsame.card
    rw [hok, finalState, Db.cardFace, Db.cardFace, Db.card?, Db.card?, hforked.hopCards, hcards,
      Table.find?_update,
      Table.find?_update, show mid.cards.find? run.cardId = some card from hfind] at hface
    simp only [Option.map_some, hid, BEq.rfl, if_true, Option.some.injEq, Prod.mk.injEq, true_and]
      at hface
    refine hforked.conversation.mp ?_
    cases hnone : next.sessionId with
    | none => exact .inl hnone
    | some session =>
        refine .inr fun c hc => ?_
        cases hfind.symm.trans hc
        rw [hnone] at hface ⊢
        exact hface
  · intro h
    have hcontinues := h haccepts
    obtain ⟨r, t, hok, hruns, hcards⟩ := hforked.enqueued hcontinues.passes
    obtain ⟨card, hfind⟩ := hforked.card
    have hid : card.id = run.cardId := Table.key_of_find? hfind
    rw [hok, finalState]
    refine ⟨?_, hforked.hopRuns.trans hruns.symm⟩
    rw [Db.cardFace, Db.cardFace, Db.card?, Db.card?, hforked.hopCards, hcards, Table.find?_update,
      Table.find?_update,
      show mid.cards.find? run.cardId = some card from hfind]
    simp only [Option.map_some, hid, BEq.rfl, if_true, Option.some.injEq, Prod.mk.injEq, true_and]
    rcases hforked.conversation.mpr hcontinues.conversation with hnone | hkept
    · rw [hnone]
      rfl
    · rw [← hkept card hfind]
      cases card.sessionId <;> rfl

/-! ## Histories -/

/-- Every card goes by the conversation of its newest run that has one. -/
def SessionsFollow (db : Db) : Prop :=
  ∀ card ∈ db.cards, card.sessionId = ((db.listRuns card.id).filterMap Run.sessionId).getLast?

theorem latest_threads (db : Db) (cardId : Int) :
    (Tables.threads db.toTables).latest cardId =
      ((db.listRuns cardId).filterMap Run.sessionId).getLast? := by
  show (((db.runs.rows.map threadOf).filter fun r => r.cardId == cardId).filterMap
      Thread.sessionId).getLast? = _
  rw [List.filter_map, List.filterMap_map]
  rfl

theorem sessionsFollow_of_follows (h : (Tables.threads db.toTables).Follows) :
    SessionsFollow db := by
  intro card hcard
  rw [← latest_threads]
  exact h.follows _ (mem_topics.mpr ⟨_, mem_cardStates.mpr ⟨card, hcard, rfl⟩, rfl⟩)

theorem follows_fresh : (Tables.threads Db.fresh.toTables).Follows where
  follows c hc := by
    obtain ⟨_, hc, -⟩ := mem_topics.mp hc
    obtain ⟨_, hc, -⟩ := mem_cardStates.mp hc
    cases hc
  newest r hr := by
    obtain ⟨_, hr, -⟩ := mem_threads.mp hr
    cases hr
  owned r hr := by
    obtain ⟨_, hr, -⟩ := mem_threads.mp hr
    cases hr

/-- The call is no finalization with a next run, or one that agrees with a plain enqueue. -/
def HopsAgree (db : Db) (call : Conn × Operation) : Prop :=
  ∀ p run next, call.2 = .finalizeRun p → db.run? p.runId = some run → run.isOpen = true →
    p.next = some next → Accepts call.1 db run p → Continues call.1 db run next

theorem talks_of_hopsAgree {op : Operation} (h : HopsAgree db (conn, op)) :
    Talks db (finalState (op.run conn db)) := by
  by_cases hkeeps : StaysOnTopic db op
  · exact talks_run op hkeeps
  · simp only [StaysOnTopic, not_forall] at hkeeps
    obtain ⟨p, run, next, rfl, hrun, hnext, hkeeps⟩ := hkeeps
    -- the finalization is refused
    have hsame : finalState (finalizeRunUow conn p db) = db := by
      refine (finalizeRunUow_atomic p).at (R := fun s t => t = s) fun effects db' hok => ?_
      obtain ⟨ids, htx⟩ := finalizeRunUow_ok hok
      obtain ⟨found, -, hfind, hopen, -⟩ := finalizeRunTx_cut htx
      cases hrun.symm.trans hfind
      have hfound : (db.run? p.runId).filter Run.isOpen = some run := by simp [hrun, hopen]
      obtain ⟨mid, -, hmid, -⟩ := (finalizeRunTx_next hfound).mp htx
      exact absurd (h p run next rfl hrun hopen hnext (accepts_of_ok hfound hmid)).conversation
        hkeeps
    show Talks db (finalState (dropping (finalizeRunUow conn p) db))
    rw [finalState_dropping, hsame]
    exact refl_of Talks db

theorem sessionsFollow_of_history (h : history.ReachableBy HopsAgree db) : SessionsFollow db := by
  refine sessionsFollow_of_follows
    (history_invariant (I := fun db => (Tables.threads db.toTables).Follows) follows_fresh ?_ h)
  intro db conn op hfollows hagree
  exact (talks_of_hopsAgree hagree).follows hfollows

/-- An auto hop is a plain enqueue exactly if its next run is one, in the conversation of the card;
and while every hop is, every card goes by the conversation of its newest run that has one. -/
theorem hop_agrees_iff_conversation_kept (conn : Conn) (db : Db) (p : FinalizeRun) (run : Run)
    (next : EnqueueRun)
    (hrun : db.run? p.runId = some run) (hopen : run.isOpen = true) (hnext : p.next = some next) :
    (SameOutcome run.cardId (finalState (finalizeThenEnqueue conn p next db))
      (finalState (finalizeRunUow conn p db)) ↔
      (Accepts conn db run p → Continues conn db run next)) ∧
    ∀ db', history.ReachableBy HopsAgree db' → SessionsFollow db' :=
  ⟨sameOutcome_iff hrun hopen hnext, fun _ => sessionsFollow_of_history⟩

def plainConn : Conn := { now := "2026-01-01 00:00:00" }

/-- A run of card 1 in the first column. -/
def runIn (session : String) : EnqueueRun where
  cardId := 1
  columnId := 1
  harness := "claude"
  argv := []
  promptSnapshot := ""
  systemPromptSnapshot := none
  launchSpec := none
  sessionId := some session
  session := none

/-- A card whose run is started, in conversation "a". -/
def talking : Db :=
  finalState ((do
    let _ ← createCard plainConn { title := "Task" }
    let _ ← enqueueRunUow plainConn (runIn "a")
    promoteRunWithAnchorUow plainConn 1 (some "w1") (some "w1:p1") none none none :
    StoreM Run) Db.fresh)

def hoppingTo (session : String) : FinalizeRun where
  runId := 1
  outcome := .ok
  summary := none
  comments := []
  targetColumnId := none
  finalStatus := .idle
  finalAwaitingReason := none
  next := some (runIn session)

theorem talking_run : ∃ run, talking.run? 1 = some run ∧ run.isOpen = true ∧ run.cardId = 1 := by
  have hrun : (talking.run? 1).map (fun r => (r.isOpen, r.cardId)) = some (true, 1) := by
    decide +kernel
  obtain ⟨run, hfind, hfields⟩ := Option.map_eq_some_iff.mp hrun
  obtain ⟨hopen, hcard⟩ := Prod.mk.inj hfields
  exact ⟨run, hfind, hopen, hcard⟩

/-- A hop within one conversation. -/
theorem hop_agrees_iff_conversation_kept_talking : SameOutcome 1
    (finalState (finalizeThenEnqueue plainConn (hoppingTo "a") (runIn "a") talking))
    (finalState (finalizeRunUow plainConn (hoppingTo "a") talking)) := by
  obtain ⟨run, hfind, hopen, hcard⟩ := talking_run
  rw [← hcard]
  refine (hop_agrees_iff_conversation_kept plainConn talking (hoppingTo "a") run (runIn "a") hfind
    hopen rfl).1.mpr fun _ => ?_
  refine ⟨hcard.symm, ?_, passes_of_none rfl _, .inr fun card hfound => ?_⟩
  · rw [hcard]
    decide +kernel
  · rw [hcard] at hfound
    have hsession : (talking.card? 1).map (fun c => c.sessionId) = some (some "a") := by
      decide +kernel
    rw [hfound] at hsession
    exact Option.some.inj hsession

/-- A hop into another conversation leaves the card with the old one. -/
theorem hop_leaves_conversation :
    succeeded (finalizeRunUow plainConn (hoppingTo "b") talking) = true ∧
    ¬SameOutcome 1 (finalState (finalizeThenEnqueue plainConn (hoppingTo "b") (runIn "b") talking))
      (finalState (finalizeRunUow plainConn (hoppingTo "b") talking)) ∧
    ¬SessionsFollow (finalState (finalizeRunUow plainConn (hoppingTo "b") talking)) := by
  refine ⟨by decide +kernel, fun h => ?_, ?_⟩
  · have hface : Db.cardFace (finalState (finalizeRunUow plainConn (hoppingTo "b") talking)) 1 ≠
        Db.cardFace (finalState (finalizeThenEnqueue plainConn (hoppingTo "b") (runIn "b") talking))
          1 := by
      decide +kernel
    exact hface h.card
  · unfold SessionsFollow
    decide +kernel

end HerdrBoard.Lifecycle
