import HerdrBoard.Core.Lemmas.Success
import HerdrBoard.Lifecycle.Store

/-!
# Runs refine the lifecycle

Promoting, signalling and finalizing a run is one event each.
-/

open Lib HerdrBoard.Core

namespace HerdrBoard.Lifecycle

variable {db db' : Db} {run : Run}

/-! ## Promoting -/

/-- The arguments of a promotion. -/
def launchOf (conn : Conn) (workspaceId paneId anchorPaneId : Option String)
    (deadlineAtMs : Option Int) (captured : Option String) : Life.Launch where
  now := conn.now
  workspaceId
  paneId
  anchorPaneId
  deadlineAtMs
  captured

variable {conn : Conn} {runId : Int} {workspaceId paneId anchorPaneId : Option String}
  {deadlineAtMs : Option Int} {captured : Option String}

theorem life_promoteRunTx {u : Unit}
    (h : promoteRunTx conn runId workspaceId paneId anchorPaneId deadlineAtMs captured
    db = .ok u db') : ∃ run, db.run? runId = some run ∧ run.isQueued = true ∧ life db'.toTables =
      (life db.toTables).promote run
        (launchOf conn workspaceId paneId anchorPaneId deadlineAtMs captured) := by
  simp only [promoteRunTx, bind_ok, get_ok, okOr_ok, updateRuns_ok] at h
  obtain ⟨_, _, ⟨rfl, rfl⟩, run, _, ⟨hrun, rfl⟩, _, mid₁, hruns, _, mid₂, hfault, hrest⟩ := h
  obtain ⟨hfind, hqueued⟩ := Option.filter_eq_some_iff.mp hrun
  cases lifecycleFault_ok hfault
  have hid : run.id = runId := Table.key_of_find? hfind
  have htab : db'.toTables = { mid₁.toTables with
      cards := mid₁.cards.update (fun c => c.id == run.cardId) fun c =>
        { c with status := .running, awaitingReason := none, sessionId := captured <|> c.sessionId,
                 updatedAt := conn.now } } := by
    rcases ite_ok.mp hrest with ⟨_, h⟩ | ⟨_, h⟩
    · obtain ⟨_, mid₃, hcapture, h⟩ := bind_ok.mp h
      cases lifecycleFault_ok hcapture
      obtain ⟨_, _, hupd, hdone⟩ := bind_ok.mp h
      cases hdone
      exact (updateCards_ok.mp hupd).1
    · obtain ⟨_, _, hupd, hdone⟩ := bind_ok.mp h
      cases hdone
      exact (updateCards_ok.mp hupd).1
  refine ⟨run, hfind, hqueued, life_eq ?_ ?_⟩
  · rw [htab, hruns]
    exact rows_cardStates_update rfl fun _ _ _ => rfl
  · rw [htab, hruns, ← hid]
    rfl

theorem life_promote {r : Run}
    (h : promoteRunWithAnchorUow conn runId workspaceId paneId anchorPaneId deadlineAtMs captured
    db = .ok r db') : ∃ run, db.run? runId = some run ∧ run.isQueued = true ∧ life db'.toTables =
      (life db.toTables).promote run
        (launchOf conn workspaceId paneId anchorPaneId deadlineAtMs captured) := by
  obtain ⟨_, mid, htx, hget⟩ := bind_ok.mp h
  obtain ⟨-, rfl⟩ := getRun_ok.mp hget
  exact life_promoteRunTx (transaction_ok.mp htx)

/-- A rewritten run is still there. -/
theorem run?_of_rewrite {g : Run → Run} (hfind : db.run? runId = some run)
    (hruns : Life.RewritesRun db.runs db'.runs run g) (hg : ∀ r, (g r).id = r.id) :
    db'.run? runId = some (g run) := by
  have hid : run.id = runId := Table.key_of_find? hfind
  have hmem : g run ∈ db'.runs := hruns.mem_iff.mpr ⟨run, Table.mem_of_find? hfind, if_pos rfl⟩
  exact Table.find?_eq_some.mpr ⟨hmem, (hg run).trans hid⟩

theorem promoteRunWithAnchorUow_atomic :
    Atomic (promoteRunWithAnchorUow conn runId workspaceId paneId anchorPaneId deadlineAtMs
      captured) := by
  refine (atomic_transaction _).bind_succeeds fun db u mid h => ?_
  obtain ⟨run, hfind, -, hlife⟩ := life_promoteRunTx (transaction_ok.mp h)
  have hruns : mid.runs = _ := congrArg Life.runs hlife
  have hrewrites : Life.RewritesRun db.runs mid.runs run
      (launchOf conn workspaceId paneId anchorPaneId deadlineAtMs captured).start := by
    rw [hruns]
    rfl
  exact ⟨_, mid, getRun_run (run?_of_rewrite hfind hrewrites fun _ => rfl)⟩

/-! ## Signals -/

/-- The statement that rewrites the active run of a card rewrites that run. -/
theorem active_iff (hrun : run ∈ db.runs) (hactive : run.isActive = true) :
    ∀ r ∈ db.runs, (r.cardId == run.cardId && r.isActive) = true ↔ Keyed.key r = Keyed.key run := by
  intro r hr
  constructor
  · intro h
    simp only [Bool.and_eq_true, beq_iff_eq] at h
    have hopen : ∀ s : Run, s.isActive = true → s.isOpen = true := by
      intro s hs
      simp only [Run.isActive, Bool.and_eq_true] at hs
      exact hs.2
    rw [Db.open_run_unique hr hrun h.1 (hopen r h.2) (hopen run hactive)]
  · intro h
    rw [Table.eq_of_key_eq hr hrun h]
    simp [hactive]

theorem open_iff (hrun : run ∈ db.runs) (hopen : run.isOpen = true) :
    ∀ r ∈ db.runs, (r.cardId == run.cardId && r.isOpen) = true ↔ Keyed.key r = Keyed.key run := by
  intro r hr
  constructor
  · intro h
    simp only [Bool.and_eq_true, beq_iff_eq] at h
    rw [Db.open_run_unique hr hrun h.1 h.2 hopen]
  · intro h
    rw [Table.eq_of_key_eq hr hrun h]
    simp [hopen]


theorem life_pauseRunTimeout {reason : AwaitingReason} {nowMs : Int} {c : Card}
    (hrun : run ∈ db.runs) (hactive : run.isActive = true)
    (h : pauseRunTimeoutUow conn run.cardId reason nowMs db = .ok c db') :
    life db'.toTables = (life db.toTables).signal run .awaiting (some reason)
      run.timeoutDeadlineAtMs (run.timeoutPausedAtMs <|> some nowMs) := by
  simp only [pauseRunTimeoutUow, bind_ok, transaction_ok, updateCards_ok, updateRuns_ok,
    requireCard_ok] at h
  obtain ⟨_, mid, ⟨_, mid₁, ⟨hcards, -⟩, hruns⟩, -, rfl⟩ := h
  refine life_eq ?_ ?_
  · rw [hruns, hcards]
    exact rows_cardStates_update rfl fun _ _ _ => rfl
  · rw [hruns, hcards]
    exact Table.rows_rewrite_one hrun (active_iff hrun hactive) rfl

theorem life_setCardAwaiting {reason : AwaitingReason} {c : Card} (hrun : run ∈ db.runs)
    (h : setCardAwaiting conn run.cardId reason db = .ok c db') :
    life db'.toTables = (life db.toTables).signal run .awaiting (some reason)
      run.timeoutDeadlineAtMs run.timeoutPausedAtMs := by
  simp only [setCardAwaiting, bind_ok, updateCards_ok, requireCard_ok] at h
  obtain ⟨_, mid, ⟨hcards, -⟩, -, rfl⟩ := h
  refine life_eq ?_ ?_
  · rw [hcards]
    exact rows_cardStates_update rfl fun _ _ _ => rfl
  · rw [hcards]
    exact (Table.rows_rewrite_self (g :=
      fun r => setTimeout r run.timeoutDeadlineAtMs run.timeoutPausedAtMs)
      hrun rfl).symm

theorem life_setCardStatus {status : CardStatus} {c : Card} (hrun : run ∈ db.runs)
    (h : setCardStatus conn run.cardId status db = .ok c db') :
    life db'.toTables = (life db.toTables).signal run status none run.timeoutDeadlineAtMs
      run.timeoutPausedAtMs := by
  simp only [setCardStatus, bind_ok, refuse_ok, updateCards_ok, requireCard_ok] at h
  obtain ⟨_, _, ⟨-, rfl⟩, _, mid, ⟨hcards, -⟩, -, rfl⟩ := h
  refine life_eq ?_ ?_
  · rw [hcards]
    exact rows_cardStates_update rfl fun _ _ _ => rfl
  · rw [hcards]
    exact (Table.rows_rewrite_self (g :=
      fun r => setTimeout r run.timeoutDeadlineAtMs run.timeoutPausedAtMs)
      hrun rfl).symm

/-- The durable deadline of a run that resumes. -/
def resumedDeadline (run : Run) (nowMs : Int) : Option Int :=
  match run.timeoutPausedAtMs with
  | some paused => run.timeoutDeadlineAtMs.map fun d =>
      saturatingAdd d (max (saturatingSub nowMs paused) 0)
  | none => run.timeoutDeadlineAtMs

/-- The active run of a card, as a query finds it. -/
theorem select_active (hrun : run ∈ db.runs) (hactive : run.isActive = true) :
    db.runs.select (fun r => r.cardId == run.cardId && r.isActive) = [run] := by
  refine Table.select_eq_singleton hrun fun r hr => (active_iff hrun hactive r hr).trans ?_
  exact ⟨Table.eq_of_key_eq hr hrun, congrArg Run.id⟩

theorem life_resumeRunTimeout {status : CardStatus} {nowMs : Int} {c : Card}
    (hrun : run ∈ db.runs) (hactive : run.isActive = true)
    (h : resumeRunTimeoutUow conn run.cardId status nowMs db = .ok c db') :
    life db'.toTables = (life db.toTables).signal run status none
      (resumedDeadline run nowMs) none := by
  simp only [resumeRunTimeoutUow, bind_ok, refuse_ok, transaction_ok, get_ok, requireCard_ok] at h
  obtain ⟨_, _, ⟨-, rfl⟩, _, mid, ⟨_, _, ⟨rfl, rfl⟩, hbody⟩, -, rfl⟩ := h
  rw [select_active hrun hactive] at hbody
  have hopen : run.isOpen = true := by
    simp only [Run.isActive, Bool.and_eq_true] at hactive
    exact hactive.2
  cases hpaused : run.timeoutPausedAtMs with
  | none =>
      simp only [List.head?_cons, Option.map_some, hpaused, bind_ok, updateCards_ok] at hbody
      obtain ⟨_, _, ⟨hcards, -⟩, hdone⟩ := hbody
      cases hdone
      refine life_eq ?_ ?_
      · rw [hcards]
        exact rows_cardStates_update rfl fun _ _ _ => rfl
      · rw [hcards]
        have hself : setTimeout run (resumedDeadline run nowMs) none = run := by
          have hdeadline : resumedDeadline run nowMs = run.timeoutDeadlineAtMs := by
            simp [resumedDeadline, hpaused]
          rw [hdeadline, ← hpaused]
          rfl
        exact (Table.rows_rewrite_self (g := fun r => setTimeout r (resumedDeadline run nowMs) none)
          hrun hself).symm
  | some paused =>
      simp only [List.head?_cons, Option.map_some, hpaused, bind_ok, updateCards_ok, updateRuns_ok]
        at hbody
      obtain ⟨_, mid₁, hruns, _, _, ⟨hcards, -⟩, hdone⟩ := hbody
      cases hdone
      refine life_eq ?_ ?_
      · rw [hcards, hruns]
        exact rows_cardStates_update rfl fun _ _ _ => rfl
      · rw [hcards, hruns]
        exact Table.rows_rewrite_one hrun (open_iff hrun hopen) (by simp [resumedDeadline, hpaused])

/-! ## Finalizing -/

/-- A committed finalization without its next run, as the lifecycle sees it. -/
structure Finalized (conn : Conn) (p : FinalizeRun) (run : Run) (db mid : Db) : Prop where
  cards : (cardStates mid.cards).rows = (cardStates db.cards).rows.map fun c =>
    if c.id == run.cardId then
      { c with status := p.finalStatus, awaitingReason := p.finalAwaitingReason } else c
  runs : mid.runs = (life db.toTables).endRun run.id conn.now p.outcome p.summary

/-- A committed finalization, cut where the next run is inserted. -/
theorem finalizeRunTx_cut {p : FinalizeRun} {ids : Int × Option Int}
    (h : finalizeRunTx conn p db = .ok ids db') :
    ∃ run mid, db.run? p.runId = some run ∧ run.isOpen = true ∧ ids.1 = run.cardId ∧
      (∀ next, p.next = some next → next.cardId = run.cardId) ∧ Finalized conn p run db mid ∧
      insertNext run.cardId p.next mid = .ok ids.2 db' := by
  simp only [finalizeRunTx, bind_ok, get_ok, okOr_ok, updateRuns_ok, updateCards_ok, pure_ok] at h
  obtain ⟨_, _, ⟨rfl, rfl⟩, run, _, ⟨hrun, rfl⟩, _, chk, hcheck, _, mid₁, hruns, _, mid₂, hfault,
    _, mid₃, hcomments, _, mid₄, htrans, _, mid₅, ⟨hcards, -⟩, nextId, mid₆, hnext, rfl, rfl⟩ := h
  obtain ⟨hfind, hopen⟩ := Option.filter_eq_some_iff.mp hrun
  have hid : run.id = p.runId := Table.key_of_find? hfind
  cases (readOnly_checkNext _ _).ok hcheck
  cases lifecycleFault_ok hfault
  have hlife : life mid₄.toTables = life mid₁.toTables :=
    ((keeps_applyTransition placeBlind_life run.cardId p.targetColumnId).ok htrans).trans
      ((keeps_insertComments commentBlind_life conn run.cardId p.comments).ok hcomments)
  obtain ⟨hcards₄, hruns₄⟩ : cardStates mid₄.cards = cardStates mid₁.cards ∧
      mid₄.runs = mid₁.runs :=
    ⟨congrArg Life.cards hlife, congrArg Life.runs hlife⟩
  refine ⟨run, mid₅, hfind, hopen, rfl, ?_, ⟨?_, ?_⟩, hnext⟩
  · intro next hsome
    rw [hsome] at hcheck
    simp only [checkNext, bind_ok, refuse_ok, not_not] at hcheck
    exact hcheck.choose_spec.choose_spec.1.1
  · have hstates : cardStates mid₁.cards = cardStates db.cards := by rw [hruns]
    rw [hcards, ← hstates, ← hcards₄]
    exact rows_cardStates_update rfl fun _ _ _ => rfl
  · rw [hcards, hid]
    show mid₄.runs = _
    rw [hruns₄, hruns]
    rfl

theorem finalizeRunUow_ok {p : FinalizeRun} {effects : FinalizeEffects}
    (h : finalizeRunUow conn p db = .ok effects db') :
    ∃ ids, finalizeRunTx conn p db = .ok ids db' := by
  simp only [finalizeRunUow, bind_ok, transaction_ok, requireCard_ok, getRun_ok, pure_ok] at h
  obtain ⟨ids, mid, htx, _, _, ⟨-, rfl⟩, _, _, ⟨-, rfl⟩, _, _, hget, -, rfl⟩ := h
  cases (readOnly_getNextRun _).ok hget
  exact ⟨ids, htx⟩

/-- Finalizing without a next run. -/
theorem life_finalize {p : FinalizeRun} {effects : FinalizeEffects} (hnext : p.next = none)
    (hreason : p.finalAwaitingReason = none) (h : finalizeRunUow conn p db = .ok effects db') :
    ∃ run, db.run? p.runId = some run ∧ run.isOpen = true ∧
      life db'.toTables = (life db.toTables).finish run conn.now p.outcome p.summary
        p.finalStatus := by
  obtain ⟨ids, htx⟩ := finalizeRunUow_ok h
  obtain ⟨run, mid, hfind, hopen, -, -, hmid, hins⟩ := finalizeRunTx_cut htx
  rw [hnext] at hins
  obtain ⟨-, rfl⟩ := pure_ok.mp hins
  refine ⟨run, hfind, hopen, life_eq (hmid.cards.trans ?_) (congrArg Table.rows hmid.runs)⟩
  rw [hreason]
  rfl

/-- Finalizing with a next run. -/
theorem life_hop {p : FinalizeRun} {effects : FinalizeEffects} {next : EnqueueRun}
    (hnext : p.next = some next) (h : finalizeRunUow conn p db = .ok effects db') :
    ∃ run, db.run? p.runId = some run ∧ run.isOpen = true ∧
      life db'.toTables = (life db.toTables).hop run conn.now p.outcome p.summary next := by
  obtain ⟨ids, htx⟩ := finalizeRunUow_ok h
  obtain ⟨run, mid, hfind, hopen, -, hcard, hmid, hins⟩ := finalizeRunTx_cut htx
  rw [hnext] at hins
  simp only [insertNext, bind_ok, insertRun_ok, updateCards_ok, pure_ok] at hins
  obtain ⟨id, mid₁, ⟨hrun, -⟩, _, mid₂, ⟨hcards, -⟩, -, rfl⟩ := hins
  refine ⟨run, hfind, hopen, life_eq ?_ ?_⟩
  · rw [hcards, hrun]
    refine (rows_cardStates_update (g :=
      fun c => { c with status := .queued, awaitingReason := none }) rfl
      fun _ _ _ => rfl).trans ?_
    rw [hmid.cards]
    simp only [Life.hop, Life.setCard, Table.update, List.map_map, life_cards]
    refine List.map_congr_left fun c _ => ?_
    by_cases hc : c.id = run.cardId <;> simp [hc]
  · rw [hcards, hrun, hcard next hnext]
    show mid.runs.rows ++ [queuedRun run.cardId next mid.runs.nextKey] = _
    rw [hmid.runs]
    rfl

/-- The next run, if there is one, is in the store, and the others are as they were. -/
theorem insertNext_ok {cardId : Int} {next : Option EnqueueRun} {nextId : Option Int}
    (h : insertNext cardId next db = .ok nextId db') :
    (∀ r ∈ db.runs, r ∈ db'.runs) ∧ (∀ r ∈ db'.runs, r ∈ db.runs ∨ r.isQueued = true) ∧
      ∀ id, nextId = some id → (db'.run? id).isSome := by
  cases next with
  | none =>
      obtain ⟨rfl, rfl⟩ := pure_ok.mp h
      exact ⟨fun _ hr => hr, fun _ hr => .inl hr, fun id hid => by cases hid⟩
  | some next =>
      simp only [insertNext, bind_ok, insertRun_ok, updateCards_ok, pure_ok] at h
      obtain ⟨id, mid₁, ⟨hrun, hid⟩, _, mid₂, ⟨hcards, -⟩, rfl, rfl⟩ := h
      have hruns : ∀ r, r ∈ mid₂.runs ↔
          r ∈ db.runs ∨ r = queuedRun next.cardId next db.runs.nextKey := by
        intro r
        simp [hcards, hrun]
      refine ⟨fun r hr => (hruns r).mpr (.inl hr), fun r hr => ?_, fun id' hid' => ?_⟩
      · rcases (hruns r).mp hr with hr | rfl
        · exact .inl hr
        · exact .inr rfl
      · cases hid'
        rw [hid]
        exact Option.isSome_iff_exists.mpr ⟨_, Table.find?_key ((hruns _).mpr (.inr rfl))⟩

/-- Once its statements have committed, a finalization reads back what it wrote. -/
theorem finalizeRunUow_of_tx {p : FinalizeRun} {ids : Int × Option Int}
    (h : finalizeRunTx conn p db = .ok ids db') :
    ∃ effects, finalizeRunUow conn p db = .ok effects db' := by
  obtain ⟨run, mid, hfind, -, hcardId, -, hmid, hins⟩ := finalizeRunTx_cut h
  obtain ⟨hkeep, -, hnext⟩ := insertNext_ok hins
  have hrewrites : Life.RewritesRun db.runs mid.runs run fun r =>
      { r with
        endedAt := some conn.now, outcome := some p.outcome, resultSummary := p.summary } := by
    rw [hmid.runs]
    exact rewrites_endRun run conn.now p.outcome p.summary
  have hended := run?_of_rewrite hfind hrewrites fun _ => rfl
  have hrow := hkeep _ (Table.mem_of_find? hended)
  obtain ⟨card, hcard, hid⟩ := Db.run_card hrow
  have hcard' : requireCard ids.1 db' = .ok card db' := by
    rw [hcardId]
    exact requireCard_run (hid ▸ Table.find?_key hcard)
  have hrun' := getRun_run (Table.find?_eq_some.mpr ⟨hrow, Table.key_of_find? hended⟩)
  have hnext' : ∃ next, getNextRun ids.2 db' = .ok next db' := by
    cases hnextId : ids.2 with
    | none => exact ⟨none, rfl⟩
    | some id =>
        obtain ⟨next, hfindNext⟩ := Option.isSome_iff_exists.mp (hnext id hnextId)
        exact ⟨some next, bind_ok.mpr ⟨_, _, getRun_run hfindNext, rfl⟩⟩
  obtain ⟨next, hget⟩ := hnext'
  exact ⟨_, bind_ok.mpr ⟨ids, db', transaction_ok.mpr h,
    bind_ok.mpr ⟨_, _, hcard', bind_ok.mpr ⟨_, _, hrun', bind_ok.mpr ⟨_, _, hget, rfl⟩⟩⟩⟩⟩

theorem finalizeRunUow_atomic (p : FinalizeRun) : Atomic (finalizeRunUow conn p) := by
  intro db e t h
  cases htx : finalizeRunTx conn p db with
  | ok ids db' =>
      obtain ⟨effects, hok⟩ := finalizeRunUow_of_tx htx
      rw [hok] at h
      cases h
  | error e' db' =>
      simp only [finalizeRunUow, run_bind, transaction, htx] at h
      cases h
      rfl

/-- Without a fault, a finalization of an open run goes through once its checks have passed. -/
theorem succeeds_finalizeRunUow {p : FinalizeRun} {run : Run}
    (hpass : conn.Passes .finalizeAfterRunUpdate)
    (hrun : db.run? p.runId = some run) (hopen : run.isOpen = true)
    (hreason : p.finalStatus = .awaiting ↔ p.finalAwaitingReason.isSome)
    (htarget : ∀ columnId, p.targetColumnId = some columnId →
      db.boardMatches columnId run.cardId = true)
    (hnext : ∀ next, p.next = some next →
      next.cardId = run.cardId ∧ db.boardMatches next.columnId run.cardId = true) :
    Succeeds (finalizeRunUow conn p) db fun _ _ => True := by
  obtain ⟨ids, db', htx, -⟩ := succeeds_finalizeRunTx hpass hrun hopen hreason htarget hnext
  obtain ⟨effects, hok⟩ := finalizeRunUow_of_tx htx
  exact ⟨effects, db', hok, trivial⟩

/-- Without a fault, a queued run is promoted. -/
theorem succeeds_promoteRunWithAnchorUow (hpromote : conn.Passes .promoteAfterRunUpdate)
    (hcapture : conn.Passes .captureAfterRunUpdate) (hrun : db.run? runId = some run)
    (hqueued : run.isQueued = true) :
    Succeeds (promoteRunWithAnchorUow conn runId workspaceId paneId anchorPaneId
      deadlineAtMs captured) db fun _ _ => True := by
  have hfound : (db.run? runId).filter Run.isQueued = some run := by simp [hrun, hqueued]
  have htx : Succeeds (promoteRunTx conn runId workspaceId paneId anchorPaneId deadlineAtMs
      captured) db fun _ _ => True := by
    refine succeeds_get_bind (succeeds_bind_run (okOr_run hfound _) ?_)
    refine (succeeds_updateRuns (by intro r; rfl) (by intro r; rfl) (by intro r hr; exact hr)).bind
      fun _ started _ _ => ?_
    refine succeeds_bind_run (lifecycleFault_run hpromote) (succeeds_ite (fun _ => ?_) fun _ => ?_)
    · refine succeeds_bind_run (lifecycleFault_run hcapture) ?_
      exact (succeeds_updateCards_here (by intro c; rfl) (by intro c; rfl) (by intro c; simp)).bind
        fun _ _ _ _ =>
        succeeds_pure trivial
    · exact (succeeds_updateCards_here (by intro c; rfl) (by intro c; rfl) (by intro c; simp)).bind
        fun _ _ _ _ =>
        succeeds_pure trivial
  obtain ⟨_, db', htx, -⟩ := htx
  obtain ⟨run', hfind, -, hlife⟩ := life_promoteRunTx htx
  have hruns : db'.runs = _ := congrArg Life.runs hlife
  have hrewrites : Life.RewritesRun db.runs db'.runs run'
      (launchOf conn workspaceId paneId anchorPaneId deadlineAtMs captured).start := by
    rw [hruns]
    rfl
  have hget := getRun_run (run?_of_rewrite hfind hrewrites fun _ => rfl)
  exact ⟨_, db', bind_ok.mpr ⟨(), db', transaction_ok.mpr htx, hget⟩, trivial⟩

end HerdrBoard.Lifecycle
