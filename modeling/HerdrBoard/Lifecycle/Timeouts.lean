import HerdrBoard.Core.Lemmas.Bystanders
import HerdrBoard.Lifecycle.Finalization

/-!
# Due timeouts

A due timeout ends its run and kills the pane exactly when the hop that `on_fail` leads to can
be prepared. -/

open Lib HerdrBoard.Core HerdrBoard.Daemon

namespace HerdrBoard.Lifecycle

variable {cfg : Config} {env : Env} {db db' : Db} {d d' : DaemonState}

/-! ## The other candidates of a pass -/

/-- What a pass leaves of a watched run and its card while it works on others. -/
structure Untouched (run : Run) (d d' : DaemonState) : Prop where
  about : d'.db.toTables.about run.cardId = d.db.toTables.about run.cardId
  active : d'.sched.active.lookup run.id = d.sched.active.lookup run.id
  hops : d'.sched.chainHops.lookup run.cardId = d.sched.chainHops.lookup run.cardId
  kills : ∃ killed, d'.kills = d.kills ++ killed

variable {run : Run}

theorem Untouched.refl (d : DaemonState) : Untouched run d d := ⟨rfl, rfl, rfl, [], by simp⟩

theorem Untouched.trans {d'' : DaemonState} (h : Untouched run d d') (h' : Untouched run d' d'') :
    Untouched run d d'' := by
  obtain ⟨killed, hkills⟩ := h.kills
  obtain ⟨killed', hkills'⟩ := h'.kills
  refine ⟨h'.about.trans h.about, h'.active.trans h.active, h'.hops.trans h.hops,
    killed ++ killed', ?_⟩
  rw [hkills', hkills, List.append_assoc]

theorem Untouched.mem (h : Untouched run d d') (hrun : run ∈ d.db.runs) : run ∈ d'.db.runs :=
  mem_runs_of_about h.about hrun rfl

theorem untouched_finalizes {runId : Int} {outcome : RunOutcome}
    {summary extraComment : Option String} {kill : Bool}
    (h : FinalizesOrNot cfg env runId outcome summary extraComment kill d d')
    (hrun : run ∈ d.db.runs)
    (hopen : run.isOpen = true) (hne : runId ≠ run.id) : Untouched run d d' := by
  cases h with
  | inl h =>
      rw [h]
      exact .refl d
  | inr h =>
      obtain ⟨found, plan, hfin⟩ := h
      have hcard : found.cardId ≠ run.cardId := by
        intro hcard
        have heq := Db.open_run_unique (Table.mem_of_find? hfin.found) hrun hcard hfin.isOpen hopen
        exact hne ((Table.key_of_find? hfin.found).symm.trans (congrArg Run.id heq))
      obtain ⟨effects, huow⟩ := hfin.committed
      obtain ⟨ids, htx⟩ := finalizeRunUow_ok huow
      obtain ⟨ended, _, hended, -, hids, -⟩ := finalizeRunTx_cut htx
      cases hfin.found.symm.trans hended
      have habout : d'.db.toTables.about run.cardId = d.db.toTables.about run.cardId :=
        about_finalizeRunTx htx (by rw [hids]; exact hcard)
      rw [hfin.settled]
      refine ⟨habout, AList.lookup_erase_ne hne.symm, ?_, ⟨_, rfl⟩⟩
      unfold settleFinalized
      cases plan.nextHops with
      | some hops => exact AList.lookup_insert_ne hcard.symm
      | none => exact AList.lookup_erase_ne hcard.symm

theorem keeps_about_writeSignal {card : Card} {dec : SignalDecision} {cardId : Int}
    (hne : card.id ≠ cardId) : KeepsTables (Tables.about cardId) (writeSignal env card dec) := by
  unfold writeSignal
  cases dec.awaitingReason with
  | some reason =>
      exact respects_ite (fun _ => keeps_about_pauseRunTimeoutUow hne _ _ _) fun _ =>
        keeps_about_setCardAwaiting hne _ _
  | none =>
      exact respects_ite (fun _ => keeps_about_resumeRunTimeoutUow hne _ _ _) fun _ =>
        keeps_about_setCardStatus hne _ _

theorem untouched_signal {runId cardId : Int} {signal : AgentSignal} {guard : SignalGuard}
    (hrun : run ∈ d.db.runs) (hopen : run.isOpen = true) (hne : runId ≠ run.id) :
    Untouched run d (applySignalGuarded env runId cardId signal guard d) := by
  obtain h | ⟨active, found, card, dec, h⟩ :
      applySignalGuarded env runId cardId signal guard d = d ∨ _ :=
    applySignalGuarded_cases runId cardId signal guard d
  · rw [h]
    exact .refl d
  · have hcard : card.id ≠ run.cardId := by
      intro hcard
      have hfound : found.cardId = run.cardId :=
        (h.runCard.trans (Table.key_of_find? h.foundCard).symm).trans hcard
      have heq := Db.open_run_unique (Table.mem_of_find? h.foundRun) hrun hfound
        (isOpen_of_isActive h.isActive) hopen
      exact hne ((Table.key_of_find? h.foundRun).symm.trans (congrArg Run.id heq))
    obtain ⟨_, hwrite⟩ := h.written
    rw [h.settled]
    exact ⟨(keeps_about_writeSignal hcard).ok hwrite, AList.lookup_insert_ne hne.symm,
      rfl, [], by simp⟩

theorem untouched_candidate {c : Candidate} (now : Instant) (hrun : run ∈ d.db.runs)
    (hopen : run.isOpen = true)
    (hne : c.runId ≠ run.id) : Untouched run d (applyCandidate cfg env c now d) := by
  unfold applyCandidate
  split
  · exact untouched_finalizes (finalizeRunInner_cases (some now) d) hrun hopen hne
  · cases c.observedIdleSince with
    | some observed => exact untouched_signal hrun hopen hne
    | none => exact .refl d

theorem untouched_checkAt {candidates : List (Env × Candidate)} (now : Instant)
    (hrun : run ∈ d.db.runs)
    (hopen : run.isOpen = true) (hne : ∀ c ∈ candidates, c.2.runId ≠ run.id) :
    Untouched run d (checkAt cfg candidates now d) := by
  induction candidates generalizing d with
  | nil => exact .refl d
  | cons c candidates ih =>
      have hfirst : Untouched run d (applyCandidate cfg c.1 c.2 now d) :=
        untouched_candidate now hrun hopen (hne c (by simp))
      exact hfirst.trans (ih (hfirst.mem hrun) fun c hc => hne c (by simp [hc]))

/-- The hop of a card is prepared from what the store says about the card, wherever it stands. -/
theorem hopAccepted_congr {hops : Nat} {current : Column} {card : Card} {outcome : RunOutcome}
    (habout : db'.toTables.about card.id = db.toTables.about card.id) (columnId position : Int)
    (updatedAt : String) :
    HopAccepted cfg env db' hops current { card with columnId, position, updatedAt } outcome ↔
      HopAccepted cfg env db hops current card outcome := by
  have hcolumns : db'.columns = db.columns := congrArg Prod.fst habout
  have hboards : db'.boards = db.boards := congrArg (fun a => a.2.1) habout
  have hprojects : db'.projects = db.projects := congrArg (fun a => a.2.2.1) habout
  have hruns : db'.listRuns card.id = db.listRuns card.id := congrArg (fun a => a.2.2.2.2.1) habout
  have hcomments := listComments_of_about habout
  have hsuppressed : autoHopSuppressed db' { card with columnId, position, updatedAt } =
      autoHopSuppressed db card := by
    simp only [autoHopSuppressed, Db.board?, Db.project?, hboards, hprojects]
  have hlist : db'.listColumns card.boardId = db.listColumns card.boardId := by
    simp only [Db.listColumns, hcolumns]
  have hplan : ∀ column, enqueuePlan db' { card with columnId, position, updatedAt } column false =
      enqueuePlan db card column false := by
    intro column
    simp only [enqueuePlan, hruns, hcomments]
  unfold HopAccepted EnqueueAccepted
  rw [hsuppressed]
  simp only [hlist, hplan, hcomments]
  rfl

/-! ## A whole pass -/

/-- A started run watched past its deadline, its card not awaiting. -/
structure Due (now : Instant) (run : Run) (card : Card) (a : ActiveRun) (d : DaemonState) :
    Prop where
  mem : run ∈ d.db.runs
  isActive : run.isActive = true
  found : d.db.card? run.cardId = some card
  watched : d.sched.active.lookup run.id = some a
  deadline : a.timeoutDeadline.any (fun deadline => deadline ≤ now) = true
  notAwaiting : card.status ≠ .awaiting

/-- The run has ended with outcome `fail`, and in between the kill of its pane was issued. -/
structure TimedOut (run : Run) (a : ActiveRun) (d d' : DaemonState) : Prop where
  ended : ∃ r ∈ d'.db.runs, r.id = run.id ∧ r.endedAt.isSome ∧ r.outcome = some .fail
  killed : ∃ before after, d'.kills = d.kills ++ before ++ a.handle :: after

section Pass

variable {now : Instant} {card : Card} {a : ActiveRun} {candidates : List (Env × Candidate)}

theorem classifyRun_some {runId : Int} {c : Candidate}
    (h : classifyRun cfg d now runId a = some c) :
    c.runId = runId ∧ c.timedOut = a.timeoutDeadline.any fun deadline => deadline ≤ now := by
  unfold classifyRun at h
  split at h
  · cases h
  · simp only [Option.ite_none_right_eq_some, Option.some.injEq] at h
    obtain ⟨-, rfl⟩ := h
    exact ⟨rfl, rfl⟩

/-- The candidates of a pass are of different runs. -/
theorem nodup_classified (hperm : (candidates.map Prod.snd).Perm (classifyCandidates cfg d now)) :
    (candidates.map fun c => c.2.runId).Nodup := by
  have hkeys : ((classifyCandidates cfg d now).map Candidate.runId).Sublist
      d.sched.active.keys := by
    unfold classifyCandidates AList.keys List.keys
    generalize d.sched.active.entries = entries
    induction entries with
    | nil => exact .refl _
    | cons e entries ih =>
        cases hc : classifyRun cfg d now e.1 e.2 with
        | none =>
            simp only [List.filterMap_cons, hc, List.map_cons]
            exact ih.cons _
        | some c =>
            simp only [List.filterMap_cons, hc, List.map_cons, (classifyRun_some hc).1]
            exact ih.cons_cons _
  have hmap : (candidates.map fun c => c.2.runId).Perm
      ((classifyCandidates cfg d now).map Candidate.runId) := by
    have := hperm.map Candidate.runId
    rwa [List.map_map] at this
  exact hmap.nodup_iff.mpr (hkeys.nodup d.sched.active.keys_nodup)

/-- A candidate of a due run is a timeout. -/
theorem Due.timedOut (h : Due now run card a d) {c : Candidate}
    (hc : c ∈ classifyCandidates cfg d now) (hid : c.runId = run.id) : c.timedOut = true := by
  obtain ⟨e, he, hclass⟩ := List.mem_filterMap.mp hc
  obtain ⟨hrunId, htimedOut⟩ := classifyRun_some hclass
  have hlookup : d.sched.active.lookup e.1 = some e.2 := AList.mem_lookup_iff.mpr he
  rw [← hrunId, hid, h.watched] at hlookup
  rw [htimedOut, ← Option.some.inj hlookup]
  exact h.deadline

/-- A due run whose entry is about its card is a candidate. -/
theorem Due.classified (h : Due now run card a d) (hentry : a.cardId = run.cardId) :
    ∃ c ∈ classifyCandidates cfg d now, c.runId = run.id := by
  have hin : (⟨run.id, a⟩ : Sigma fun _ : Int => ActiveRun) ∈ d.sched.active.entries :=
    AList.mem_lookup_iff.mp h.watched
  have hcard : (d.db.card? a.cardId).any (fun c => c.status == .awaiting) = false := by
    simp [hentry, h.found, h.notAwaiting]
  have hsome : (classifyRun cfg d now run.id a).isSome := by simp [classifyRun, hcard, h.deadline]
  obtain ⟨c, hc⟩ := Option.isSome_iff_exists.mp hsome
  exact ⟨c, List.mem_filterMap.mpr ⟨_, hin, hc⟩, (classifyRun_some hc).1⟩

/-- A due run stays due while the pass works on others. -/
theorem Due.later (h : Due now run card a d) (hun : Untouched run d d') :
    ∃ columnId position updatedAt,
    Due now run { card with columnId, position, updatedAt } a d' := by
  obtain ⟨columnId, position, updatedAt, hfound⟩ := card?_of_about hun.about h.found
  exact ⟨columnId, position, updatedAt, hun.mem h.mem, h.isActive, hfound,
    hun.active.trans h.watched, h.deadline, h.notAwaiting⟩

theorem Due.stale (h : Due now run card a d) :
    timeoutStale d run now = !(a.cardId == run.cardId) := by
  have hstarted : run.startedAt.isNone = false := by
    have hactive := h.isActive
    simp only [Run.isActive, Bool.and_eq_true, Option.isSome_iff_ne_none] at hactive
    exact Option.isNone_eq_false_iff.mpr (Option.isSome_iff_ne_none.mpr hactive.1)
  simp [timeoutStale, h.watched, h.deadline, hstarted, h.found, h.notAwaiting]

/-- The hop that the timeout leads to is the hop of the run's own card. -/
theorem Due.accepted_iff (h : Due now run card a d) {hops : Nat} :
    (∀ card current, d.db.card? run.cardId = some card → d.db.column? run.columnId = some current →
      HopAccepted cfg env d.db hops current card .fail) ↔
    ∀ current, d.db.column? run.columnId = some current →
      HopAccepted cfg env d.db hops current card .fail := by
  refine ⟨fun hall current => hall card current h.found, fun hall card' current hcard' => ?_⟩
  cases h.found.symm.trans hcard'
  exact hall current

variable {c : Candidate}

theorem applyCandidate_timedOut (hid : c.runId = run.id) (htimedOut : c.timedOut = true) :
    ∃ msg, applyCandidate cfg env c now d =
      finalState (finalizeRunInner cfg env run.id .fail msg msg true true (some now) d) := by
  unfold applyCandidate
  rw [if_pos htimedOut, hid]
  exact ⟨_, rfl⟩

/-- The candidate of a due run whose hop can be prepared ends the run and kills its pane. -/
theorem candidate_ends (h : Due now run card a d) (hid : c.runId = run.id)
    (htimedOut : c.timedOut = true)
    (hentry : a.cardId = run.cardId) (hpass : env.conn.Passes .finalizeAfterRunUpdate)
    (haccepted : ∀ current, d.db.column? run.columnId = some current →
      HopAccepted cfg env d.db ((d.sched.chainHops.lookup run.cardId).getD 0) current card .fail) :
    (∃ r ∈ (applyCandidate cfg env c now d).db.runs, r.id = run.id ∧ r.endedAt.isSome ∧
      r.outcome = some .fail) ∧ (applyCandidate cfg env c now d).kills = d.kills ++ [a.handle] := by
  obtain ⟨msg, happly⟩ := @applyCandidate_timedOut cfg env d run now c hid htimedOut
  have hrun : d.db.run? run.id = some run := Table.find?_key h.mem
  have hstale : (some now).any (timeoutStale d run) = false := by simp [h.stale, hentry]
  obtain ⟨finished, d', hfinalize, plan, effects, huow, hsettled⟩ :=
    @finalizeRunInner_accepted cfg env d run.id .fail
    msg msg true true (some now) run card hrun (isOpen_of_isActive h.isActive) hstale h.found
    ⟨hpass, fun _ => h.accepted_iff.mpr haccepted⟩
  rw [happly, hfinalize, finalState_ok]
  obtain ⟨found, hfind, -, hended, -⟩ := finalizeRunUow_ends huow
  refine ⟨⟨_, hended, Table.key_of_find? hfind, rfl, rfl⟩, ?_⟩
  rw [hsettled]
  simp [settleFinalized, h.watched]

/-- The candidate of a due run whose hop cannot be prepared changes nothing. -/
theorem candidate_refused (h : Due now run card a d) (hid : c.runId = run.id)
    (htimedOut : c.timedOut = true)
    (hrefused : ¬(a.cardId = run.cardId ∧ env.conn.Passes .finalizeAfterRunUpdate ∧
      ∀ current, d.db.column? run.columnId = some current →
        HopAccepted cfg env d.db ((d.sched.chainHops.lookup run.cardId).getD 0) current
          card .fail)) :
    applyCandidate cfg env c now d = d := by
  obtain ⟨msg, happly⟩ := @applyCandidate_timedOut cfg env d run now c hid htimedOut
  have hrun : d.db.run? run.id = some run := Table.find?_key h.mem
  rw [happly]
  by_cases hentry : a.cardId = run.cardId
  · have hstale : (some now).any (timeoutStale d run) = false := by simp [h.stale, hentry]
    obtain ⟨e, hfinalize⟩ :=
      @finalizeRunInner_refused cfg env d run.id .fail msg msg true true (some now) run hrun
      (isOpen_of_isActive h.isActive) hstale fun ⟨hpass, haccepted⟩ =>
        hrefused ⟨hentry, hpass, h.accepted_iff.mp (haccepted rfl)⟩
    rw [hfinalize, finalState_error]
  · rw [finalizeRunInner_none hrun (isOpen_of_isActive h.isActive) (by simp [h.stale, hentry]),
      finalState_ok]

/-- The run that a pass does not end is as it was. -/
theorem not_timedOut (h : Untouched run d d') (hrun : run ∈ d.db.runs) (hopen : run.isOpen = true) :
    ¬TimedOut run a d d' := by
  rintro ⟨⟨r, hr, hid, hended, -⟩, -⟩
  rw [Table.eq_of_key_eq hr (h.mem hrun) hid] at hended
  simp [isOpen_iff.mp hopen] at hended

theorem kills_candidate (c : Candidate) (d : DaemonState) :
    ∃ killed, (applyCandidate cfg env c now d).kills = d.kills ++ killed := by
  unfold applyCandidate
  split
  · next msg =>
      obtain h | ⟨found, plan, hfin⟩ : FinalizesOrNot cfg env c.runId .fail _ _ true d (finalState
          (finalizeRunInner cfg env c.runId .fail _ _ true true (some now) d)) :=
        finalizeRunInner_cases (some now) d
      · exact ⟨[], by rw [List.append_nil]; exact congrArg DaemonState.kills h⟩
      · exact ⟨_, congrArg DaemonState.kills hfin.settled⟩
  · cases c.observedIdleSince with
    | none => exact ⟨[], by simp⟩
    | some observed =>
        obtain h | ⟨active, found, card, dec, h⟩ :
            applySignalGuarded env c.runId c.cardId .idleExpired _ d = d ∨ _ :=
          applySignalGuarded_cases c.runId c.cardId .idleExpired
            (.idleExpired observed now cfg.idleGraceSeconds) d
        · exact ⟨[], by rw [List.append_nil]; exact congrArg DaemonState.kills h⟩
        · have hkills := congrArg DaemonState.kills h.settled
          exact ⟨[], by simpa using hkills⟩

theorem kills_checkAt (candidates : List (Env × Candidate)) (d : DaemonState) :
    ∃ killed, (checkAt cfg candidates now d).kills = d.kills ++ killed := by
  induction candidates generalizing d with
  | nil => exact ⟨[], by simp [checkAt]⟩
  | cons c candidates ih =>
      obtain ⟨first, hfirst⟩ := @kills_candidate cfg c.1 now c.2 d
      obtain ⟨rest, hrest⟩ := ih (applyCandidate cfg c.1 c.2 now d)
      refine ⟨first ++ rest, ?_⟩
      rw [← List.append_assoc, ← hfirst]
      exact hrest

end Pass

/-- A pass is a history of the daemon. -/
theorem checkAt_run (candidates : List (Env × Candidate)) (now : Instant) (w : World) :
    (w.run cfg (candidates.map fun c => .watch c.1 (.candidate c.2 now))).daemon =
      checkAt cfg candidates now w.daemon := by
  induction candidates generalizing w with
  | nil => rfl
  | cons c candidates ih => exact ih _

theorem steps_run {ok : World → Label → Prop} {w : World} (ls : List Label)
    (hok : ∀ l ∈ ls, ∀ w, ok w l) : (boardd cfg).Steps ok w (w.run cfg ls) := by
  induction ls generalizing w with
  | nil => exact .refl
  | cons l ls ih => exact .head ⟨l, hok l (by simp) w, rfl⟩ (ih fun l' hl => hok l' (by simp [hl]))

/-- The reachable states are left by an ended run's row as it is. -/
theorem ended_checkAt {w : World} (hw : (boardd cfg).Reachable w) {r : Run}
    (hr : r ∈ w.daemon.db.runs)
    (hend : r.isOpen = false) (candidates : List (Env × Candidate)) (now : Instant) :
    r ∈ (checkAt cfg candidates now w.daemon).db.runs := by
  rw [← checkAt_run]
  refine ended_row_kept hw hr hend (steps_run _ fun l hl w env hdelete => ?_)
  obtain ⟨c, -, rfl⟩ := List.mem_map.mp hl
  cases hdelete

/-- What decides the timeout of a run: its entry, the store's fault hook, and the hop that
`on_fail` leads to. -/
def CandidateAccepted (cfg : Config) (env : Env) (run : Run) (card : Card) (a : ActiveRun)
    (d : DaemonState) : Prop :=
  a.cardId = run.cardId ∧ env.conn.Passes .finalizeAfterRunUpdate ∧
    ∀ current, d.db.column? run.columnId = some current →
      HopAccepted cfg env d.db ((d.sched.chainHops.lookup run.cardId).getD 0) current card .fail

section Main

variable {w : World} {now : Instant} {run : Run} {card : Card} {a : ActiveRun}

/-- The candidates before the run's own leave its timeout as it was. -/
theorem candidateAccepted_congr (hcard : card.id = run.cardId) (h : Untouched run d d')
    (columnId position : Int) (updatedAt : String) :
    CandidateAccepted cfg env run { card with columnId, position, updatedAt } a d' ↔
      CandidateAccepted cfg env run card a d := by
  have hcolumns : d'.db.columns = d.db.columns := congrArg Prod.fst h.about
  unfold CandidateAccepted
  simp only [h.hops, Db.column?, hcolumns]
  refine and_congr_right' (and_congr_right' (forall₂_congr fun current _ => ?_))
  exact hopAccepted_congr (hcard ▸ h.about) columnId position updatedAt

theorem timedOut_iff (hw : (boardd cfg).Reachable w) (hdue : Due now run card a w.daemon)
    {before after : List (Env × Candidate)} {c : Env × Candidate}
    (hbefore : ∀ x ∈ before, x.2.runId ≠ run.id) (hafter : ∀ x ∈ after, x.2.runId ≠ run.id)
    (hid : c.2.runId = run.id) (htimedOut : c.2.timedOut = true) :
    TimedOut run a w.daemon (checkAt cfg (before ++ c :: after) now w.daemon) ↔
      CandidateAccepted cfg c.1 run card a w.daemon := by
  have hopen := isOpen_of_isActive hdue.isActive
  have hun : Untouched run w.daemon (checkAt cfg before now w.daemon) :=
    untouched_checkAt now hdue.mem hopen hbefore
  have hsplit : checkAt cfg (before ++ c :: after) now w.daemon =
      checkAt cfg after now (applyCandidate cfg c.1 c.2 now (checkAt cfg before now w.daemon)) := by
        simp [checkAt]
  obtain ⟨columnId, position, updatedAt, hlater⟩ := hdue.later hun
  rw [hsplit, ← candidateAccepted_congr (Table.key_of_find? hdue.found) hun columnId
    position updatedAt]
  constructor
  · intro htimed
    by_contra hrefused
    rw [candidate_refused hlater hid htimedOut hrefused] at htimed
    have hrest : Untouched run (checkAt cfg before now w.daemon)
        (checkAt cfg after now (checkAt cfg before now w.daemon)) :=
      untouched_checkAt now (hun.mem hdue.mem) hopen hafter
    exact not_timedOut (hun.trans hrest) hdue.mem hopen htimed
  · rintro ⟨hentry, hpasses, haccepted⟩
    obtain ⟨⟨r, hr, hrid, hended, houtcome⟩, hkills⟩ :=
      candidate_ends hlater hid htimedOut hentry hpasses haccepted
    -- the world after the run's own candidate
    have hreach := reachable_run hw ((before ++ [c]).map fun c => .watch c.1 (.candidate c.2 now))
    have hdaemon :
        (w.run cfg ((before ++ [c]).map fun c => .watch c.1 (.candidate c.2 now))).daemon =
        applyCandidate cfg c.1 c.2 now (checkAt cfg before now w.daemon) := by
      rw [checkAt_run]
      simp [checkAt]
    have hclosed : r.isOpen = false := by
      simpa [Run.isOpen, Option.isSome_iff_ne_none] using hended
    refine ⟨⟨r, ?_, hrid, hended, houtcome⟩, ?_⟩
    · have hkept := ended_checkAt hreach (by rw [hdaemon]; exact hr) hclosed after now
      rwa [hdaemon] at hkept
    · obtain ⟨first, hfirst⟩ := hun.kills
      obtain ⟨rest, hrest⟩ :=
        kills_checkAt after (applyCandidate cfg c.1 c.2 now (checkAt cfg before now w.daemon))
      refine ⟨first, rest, ?_⟩
      rw [hrest, hkills, hfirst]
      simp

end Main

/-- A pass ends a run that is due, and issues the kill of its pane, if and only if the run's hop can
be prepared. -/
theorem timeout_ends_run {w : World} (hw : (boardd cfg).Reachable w) {now : Instant} {run : Run}
    {card : Card}
    {a : ActiveRun} (hdue : Due now run card a w.daemon) {candidates : List (Env × Candidate)}
    (hpass : (candidates.map Prod.snd).Perm (classifyCandidates cfg w.daemon now)) :
    TimedOut run a w.daemon (checkAt cfg candidates now w.daemon) ↔ a.cardId = run.cardId ∧
      ∀ c ∈ candidates, c.2.runId = run.id → CandidateAccepted cfg c.1 run card a w.daemon := by
  have hopen := isOpen_of_isActive hdue.isActive
  have hclass : ∀ c ∈ candidates, c.2 ∈ classifyCandidates cfg w.daemon now := fun c hc =>
    hpass.subset (List.mem_map_of_mem hc)
  by_cases hin : ∃ c ∈ candidates, c.2.runId = run.id
  · obtain ⟨c, hc, hid⟩ := hin
    obtain ⟨before, after, rfl⟩ := List.append_of_mem hc
    have hnodup := nodup_classified hpass
    simp only [List.map_append, List.map_cons, List.nodup_append, List.nodup_cons, List.mem_cons,
      List.mem_map] at hnodup
    obtain ⟨-, ⟨hnotAfter, -⟩, hdisjoint⟩ := hnodup
    have hbefore : ∀ x ∈ before, x.2.runId ≠ run.id := fun x hx hxid =>
      hdisjoint _ ⟨x, hx, rfl⟩ _ (.inl rfl) (hxid.trans hid.symm)
    have hafter : ∀ x ∈ after, x.2.runId ≠ run.id :=
      fun x hx hxid => hnotAfter ⟨x, hx, hxid.trans hid.symm⟩
    rw [timedOut_iff hw hdue hbefore hafter hid (hdue.timedOut (hclass c hc) hid)]
    constructor
    · intro haccepted
      refine ⟨haccepted.1, fun x hx hxid => ?_⟩
      rcases List.mem_append.mp hx with hx | hx
      · exact absurd hxid (hbefore x hx)
      · rcases List.mem_cons.mp hx with rfl | hx
        · exact haccepted
        · exact absurd hxid (hafter x hx)
    · intro haccepted
      exact haccepted.2 c hc hid
  · push Not at hin
    refine iff_of_false (not_timedOut (untouched_checkAt now hdue.mem hopen hin) hdue.mem hopen)
      fun haccepted => ?_
    obtain ⟨c, hc, hid⟩ := hdue.classified haccepted.1
    obtain ⟨x, hx, rfl⟩ := List.mem_map.mp (hpass.symm.subset hc)
    exact hin x hx hid

/-! ## Two overdue runs -/

/-- Claim the oldest queued run and register it. -/
def launchLabels (cfg : Config) (env : Env) (handle : RuntimeHandle) (w : World) : List Label :=
  let claim := [Label.dispatch env .readActive, .dispatch env .claim]
  match (w.run cfg claim).launching with
  | [] => claim
  | claimed :: _ =>
      match w.daemon.db.column? claimed.2.columnId with
      | none => claim
      | some column => claim ++ [.dispatch env (.registered claimed column handle)]

theorem mem_launchLabels {cfg : Config} {env : Env} {handle : RuntimeHandle} {w : World} {l : Label}
    (h : l ∈ launchLabels cfg env handle w) : ∃ x, l = .dispatch env x := by
  simp only [launchLabels] at h
  split at h
  · rcases List.mem_pair.mp h with rfl | rfl <;> exact ⟨_, rfl⟩
  · split at h
    · rcases List.mem_pair.mp h with rfl | rfl <;> exact ⟨_, rfl⟩
    · simp only [List.cons_append, List.nil_append, List.mem_cons, List.not_mem_nil, or_false] at h
      rcases h with rfl | rfl | rfl <;> exact ⟨_, rfl⟩

/-- The daemon after the launch. -/
def launchQueued (cfg : Config) (env : Env) (handle : RuntimeHandle) (w : World) : World :=
  w.run cfg (launchLabels cfg env handle w)

def plainHandle : RuntimeHandle :=
  { paneId := some "p1", workspaceId := none, anchorPaneId := none,
    pid := none, herdrSocket := none, capturedSessionId := none }

/-- A pass whose lock scopes all see the same clocks and catalogs. -/
def passFor (cfg : Config) (env : Env) (now : Instant) (d : DaemonState) : List (Env × Candidate) :=
  (classifyCandidates cfg d now).map fun c => (env, c)

theorem perm_passFor (cfg : Config) (env : Env) (now : Instant) (d : DaemonState) :
    ((passFor cfg env now d).map Prod.snd).Perm (classifyCandidates cfg d now) := by
  simp [passFor, List.map_map, Function.comp_def]

/-- Half an hour after the start of a run that has half an hour. -/
def halfAnHour : Instant := 30 * 60 * 1000

/-- The run of a card is started in a column without `on_fail`. -/
def overdue : World := launchQueued oneAtATime permissiveEnv plainHandle oneQueuedCard

/-- Whether the run is due and its entry is about its card. -/
def isDue (now : Instant) (runId : Int) (d : DaemonState) : Bool :=
  (d.db.run? runId).any fun run =>
    run.isActive && (d.db.card? run.cardId).any (fun card => card.status != .awaiting) &&
    (d.sched.active.lookup runId).any fun a =>
      a.cardId == run.cardId && a.timeoutDeadline.any fun deadline => deadline ≤ now

theorem due_of_isDue {now : Instant} {runId : Int} (h : isDue now runId d = true) :
    ∃ run card a, run.id = runId ∧ Due now run card a d ∧ a.cardId = run.cardId := by
  simp only [isDue, Option.any_eq_true, Bool.and_eq_true, bne_iff_ne, beq_iff_eq] at h
  obtain ⟨run, hrun, ⟨hactive, card, hcard, hstatus⟩, a, ha, hentry, deadline, hdeadline, hle⟩ := h
  have hid : run.id = runId := Table.key_of_find? hrun
  refine ⟨run, card, a, hid,
    ⟨Table.mem_of_find? hrun, hactive, hcard, hid ▸ ha, ?_, hstatus⟩, hentry⟩
  simpa [hdeadline] using hle

theorem timeout_ends_run_overdue : ∃ w run card a, (boardd oneAtATime).Reachable w ∧
    Due halfAnHour run card a w.daemon ∧
    TimedOut run a w.daemon
      (checkAt oneAtATime (passFor oneAtATime permissiveEnv halfAnHour w.daemon) halfAnHour
        w.daemon) := by
  have hreach : (boardd oneAtATime).Reachable overdue := reachable_run reachable_oneQueuedCard _
  obtain ⟨run, card, a, hid, hdue, hentry⟩ :=
    due_of_isDue (show isDue halfAnHour 1 overdue.daemon = true by decide +kernel)
  have hplain : (overdue.daemon.db.run? 1).bind
      (fun run => (overdue.daemon.db.column? run.columnId).map
      Column.onFailColumnId) = some none := by decide +kernel
  refine ⟨overdue, run, card, a, hreach, hdue, ?_⟩
  refine (timeout_ends_run hreach hdue (perm_passFor _ _ _ _)).mpr
    ⟨hentry, fun c hc _ => ⟨hentry, ?_, ?_⟩⟩
  · obtain ⟨_, -, rfl⟩ := List.mem_map.mp hc
    exact passes_of_none rfl _
  · intro current hcurrent target htarget
    have hfind : overdue.daemon.db.run? 1 = some run := hid ▸ Table.find?_key hdue.mem
    rw [hfind, Option.bind_some, hcurrent] at hplain
    have hnone : current.onFailColumnId = none := by simpa using hplain
    simp [transitionTarget, hnone] at htarget

/-- Claude takes a permission mode, and no other harness does. -/
def catalogEnv : Env where
  conn := { now := "2026-01-01 00:00:00" }
  instant := 0
  wallNowMs := 0
  uuid := "7f0c"
  capabilitiesFor harness := some
    { models := [], modelFreeform := true, defaultEfforts := [],
      permissionModes := if harness = "claude" then ["plan"] else [] }
  resolveSession _ := .ok ()
  resolveSpace _ _ _ := .ok ()

/-- A card in plan mode runs in a column whose `on_fail` is an auto column for another harness. -/
def refusedOnFail : World :=
  launchQueued oneAtATime catalogEnv plainHandle <| (World.start Db.fresh).run oneAtATime
    [ .request catalogEnv
      (.columnCreate { name := "Repair", trigger := some .auto, harnessOverride := some "pi" }),
      .request catalogEnv (.columnCreate
        { name := "Run", trigger := some .auto,
          timeoutMinutes := some 30, onFailColumnId := some 2 }),
      .request catalogEnv (.cardCreate
        { title := "Task", harness := some "claude", permissionMode := some "plan",
          spaceRef := some "w1" }),
      .request catalogEnv (.cardMove { id := 1, columnId := 3 }) ]

/-- The run of the card in plan mode is overdue, and a pass neither ends it nor kills its pane. -/
theorem timeout_leaves_run :
    ∃ w run card a, (boardd oneAtATime).Reachable w ∧ Due halfAnHour run card a w.daemon ∧
    ¬TimedOut run a w.daemon
      (checkAt oneAtATime (passFor oneAtATime catalogEnv halfAnHour w.daemon) halfAnHour
        w.daemon) := by
  obtain ⟨run, card, a, hid, hdue, -⟩ :=
    due_of_isDue (show isDue halfAnHour 1 refusedOnFail.daemon = true by decide +kernel)
  refine ⟨refusedOnFail, run, card, a, reachable_run (reachable_run reachable_start _) _, hdue,
    fun htimed => ?_⟩
  have hleft :
      ((checkAt oneAtATime
        (passFor oneAtATime catalogEnv halfAnHour refusedOnFail.daemon) halfAnHour
      refusedOnFail.daemon).db.run? 1).map Run.endedAt = some none := by decide +kernel
  obtain ⟨r, hr, hrid, hended, -⟩ := htimed.ended
  have hfind : (checkAt oneAtATime
      (passFor oneAtATime catalogEnv halfAnHour refusedOnFail.daemon) halfAnHour
      refusedOnFail.daemon).db.run? 1 = some r := by
    rw [← hid, ← hrid]
    exact Table.find?_key hr
  rw [hfind] at hleft
  simp [Option.some.inj hleft] at hended

end HerdrBoard.Lifecycle
