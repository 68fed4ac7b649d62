import HerdrBoard.Lifecycle.Accepting
import HerdrBoard.Lifecycle.Theorems

/-!
# A run is finalized exactly once

Whichever of its finalizers comes first ends the run; the others, and a launch that was still under
way, find it ended. -/

open Lib HerdrBoard.Core HerdrBoard.Daemon

namespace HerdrBoard.Lifecycle

variable {cfg : Config} {env : Env} {E : Event → Prop} {l l' : Life} {e : Event} {db db' : Db}
    {w w' : World}

/-! ## Ended and open runs -/

/-- An ended run does not change any more. -/
theorem Via.keeps_ended (h : Via E db db') {r : Run} (hr : r ∈ db.runs) (hend : r.isOpen = false)
    (hkeep : ¬E (.remove r.cardId)) : r ∈ db'.runs := by
  refine Lib.System.Steps.preserves (I := fun l => r ∈ l.runs) ?_ h hr
  intro s e t hs he hst
  have hstep : Step s e t := hst
  exact hstep.keeps_ended hs hend fun heq => hkeep (heq ▸ he)

/-- The runs of the given id are open. -/
def AllOpen (runs : Table Run) (id : Int) : Prop := ∀ r ∈ runs, r.id = id → r.isOpen = true

/-- Only a finalization of a run ends it. -/
theorem Step.keeps_open (h : Step l e l') {id : Int} (hopen : AllOpen l.runs id)
    (hfinish : e ≠ .finish id) (hhop : ∀ next, e ≠ .hop id next) : AllOpen l'.runs id := by
  intro r' hr' hid
  rcases h.run_back hr' with ⟨r, hr, hev⟩ | hins
  · cases hev with
    | same => exact hopen r' hr hid
    | promote _ a hqueued => exact hopen r hr hid
    | signal _ deadline paused hactive => exact hopen r hr hid
    | finish _ now outcome summary _ => exact absurd (congrArg Event.finish hid) hfinish
    | hop _ next now outcome summary _ => exact absurd (congrArg (Event.hop · next) hid) (hhop next)
  · cases hins <;> rfl

theorem Via.keeps_open (h : Via E db db') {id : Int} (hopen : AllOpen db.runs id)
    (hfinish : ¬E (.finish id)) (hhop : ∀ next, ¬E (.hop id next)) : AllOpen db'.runs id := by
  refine Lib.System.Steps.preserves (I := fun l => AllOpen l.runs id) ?_ h hopen
  intro s e t hs he hst
  have hstep : Step s e t := hst
  exact hstep.keeps_open hs (fun heq => hfinish (heq ▸ he)) fun next heq => hhop next (heq ▸ he)

/-! ## Finalizers -/

/-- The steps that finalize the run they are given. -/
inductive Finalizer (runId : Int) : Label → Prop
  /-- `run.done`, `run.pane_exited`, `run.cancel` of an active run, a pane found gone. -/
  | finalizeRun (env : Env) (outcome : RunOutcome) (summary extraComment : Option String)
      (kill transition : Bool) :
      Finalizer runId (.watch env (.finalizeRun runId outcome summary extraComment kill transition))
  | timeout (env : Env) (c : Candidate) (now : Instant) (hid : c.runId = runId)
      (hdue : c.timedOut = true) : Finalizer runId (.watch env (.candidate c now))
  | spawnFailed (env : Env) (claimed : Run × Card) (reason : String) (hid : claimed.1.id = runId) :
      Finalizer runId (.dispatch env (.failed claimed reason))

/-- The first scope of a request chose the run, and the second one is to finalize it. -/
inductive Selects (db : Db) : Run → Watch → Prop
  | runDone {p : RunDoneParams} {run : Run} {plan : FinalizePlan}
      (h : runDoneSelect p db = .ok (run, plan) db) : Selects db run (.runDone p run plan)
  | runPaneExited {p : RunPaneExitedParams} {run : Run} {plan : FinalizePlan}
      (h : runPaneExitedSelect p db = .ok (run, plan) db) : Selects db run (.runPaneExited run plan)
  | runCancel {cardId : Int} {run : Run} (h : runCancelSelect cardId db = .ok (some run) db) :
      Selects db run (.runCancel run)

theorem mem_of_openRunForCard {cardId : Int} {run : Run} (h : db.openRunForCard cardId = some run) :
    run ∈ db.runs ∧ run.cardId = cardId ∧ run.isOpen = true := by
  obtain ⟨hrun, hp⟩ := Table.mem_select.mp (List.mem_of_getLast? h)
  simpa [hrun] using hp

/-- The request finalizes a run that was open when it chose it. -/
theorem Selects.finalizer {run : Run} {x : Watch} (h : Selects db run x) (env : Env) :
    run ∈ db.runs ∧ run.isOpen = true ∧ Finalizer run.id (.watch env x) := by
  cases h with
  | @runDone p _ plan h =>
      have hopen : db.openRunForCard p.cardId = some run := by
        simp only [runDoneSelect, bind_ok, requireCard_ok, get_ok] at h
        obtain ⟨card, _, ⟨-, rfl⟩, _, _, ⟨rfl, rfl⟩, h⟩ := h
        cases hfind : db.openRunForCard p.cardId with
        | none => simp [hfind] at h
        | some found =>
            simp only [hfind, bind_ok, pure_ok, Prod.mk.injEq] at h
            obtain ⟨_, _, -, ⟨rfl, -⟩, -⟩ := h
            rfl
      obtain ⟨hrun, -, hisOpen⟩ := mem_of_openRunForCard hopen
      exact ⟨hrun, hisOpen, .finalizeRun ..⟩
  | @runPaneExited p _ plan h =>
      simp only [runPaneExitedSelect, bind_ok, get_ok, okOr_ok, requireCard_ok, pure_ok,
        Prod.mk.injEq] at h
      obtain ⟨_, _, ⟨rfl, rfl⟩, _, _, ⟨hopen, -⟩, _, _, -, _, _, -, ⟨rfl, -⟩, -⟩ := h
      obtain ⟨hrun, -, hisOpen⟩ := mem_of_openRunForCard hopen
      exact ⟨hrun, hisOpen, .finalizeRun ..⟩
  | @runCancel cardId _ h =>
      simp only [runCancelSelect, bind_ok, get_ok, pure_ok] at h
      obtain ⟨_, _, ⟨rfl, rfl⟩, hactive, -⟩ := h
      obtain ⟨hrun, hp⟩ := Table.mem_select.mp (List.mem_of_getLast? hactive)
      simp only [Bool.and_eq_true] at hp
      exact ⟨hrun, isOpen_of_isActive hp.2, .finalizeRun ..⟩

/-- A committed finalization ends its run and no other. -/
theorem finalizeRunUow_ends {conn : Conn} {p : FinalizeRun} {effects : FinalizeEffects}
    (h : finalizeRunUow conn p db = .ok effects db') : ∃ run, db.run? p.runId = some run ∧
      run.isOpen = true ∧ endedRun run conn.now p.outcome p.summary ∈ db'.runs ∧
      ∀ id, id ≠ p.runId → AllOpen db.runs id → AllOpen db'.runs id := by
  obtain ⟨ids, htx⟩ := finalizeRunUow_ok h
  obtain ⟨run, mid, hfind, hopen, -, -, hmid, hins⟩ := finalizeRunTx_cut htx
  have hend := rewrites_endRun (l := life db.toTables) run conn.now p.outcome p.summary
  rw [← hmid.runs] at hend
  obtain ⟨hkeep, hback, -⟩ := insertNext_ok hins
  have hid : run.id = p.runId := Table.key_of_find? hfind
  refine ⟨run, hfind, hopen,
    hkeep _ (hend.mem_iff.mpr ⟨run, Table.mem_of_find? hfind, if_pos rfl⟩), ?_⟩
  intro id hne hall r hr hrid
  rcases hback r hr with hr | hqueued
  · obtain ⟨s, hs, rfl⟩ := hend.mem_iff.mp hr
    by_cases hsid : s.id = run.id
    · rw [if_pos hsid] at hrid
      exact absurd (hrid.symm.trans (hsid.trans hid)) hne
    · rw [if_neg hsid] at hrid ⊢
      exact hall s hs hrid
  · exact isOpen_of_isQueued hqueued

/-- The unit of work of a launch that failed. -/
def spawnFailure (runId : Int) (reason : String) : FinalizeRun where
  runId
  outcome := .fail
  summary := some reason
  comments := [("system", reason)]
  targetColumnId := none
  finalStatus := .failed
  finalAwaitingReason := none
  next := none

/-- The unit of work that cancels a queued run. -/
def queuedCancellation (runId : Int) : FinalizeRun where
  runId
  outcome := .cancelled
  summary := some "cancelled by user"
  comments := [("system", "queued run cancelled by user")]
  targetColumnId := none
  finalStatus := .failed
  finalAwaitingReason := none
  next := none

/-- The units of work by which a step may finalize a run. -/
inductive Carries : Label → Conn → FinalizeRun → Prop
  | finalizeRun (env : Env) (runId : Int) (outcome : RunOutcome)
      (summary extraComment : Option String) (kill transition : Bool) (plan : TransitionPlan) :
      Carries (.watch env (.finalizeRun runId outcome summary extraComment kill transition))
        env.conn (plan.finalize runId outcome summary extraComment)
  | timeout (env : Env) (c : Candidate) (now : Instant) (message : String) (plan : TransitionPlan) :
      Carries (.watch env (.candidate c now)) env.conn
        (plan.finalize c.runId .fail (some message) (some message))
  | spawnFailed (env : Env) (claimed : Run × Card) (reason : String) :
      Carries (.dispatch env (.failed claimed reason)) env.conn (spawnFailure claimed.1.id reason)
  | cancel (env : Env) (cardId : Int) (runId : Int) :
      Carries (.request env (.runCancelQueued cardId)) env.conn (queuedCancellation runId)

/-- The step carried out its finalization of the run, and nothing else in the store. -/
def Commits (l : Label) (r : Run) (db db' : Db) : Prop :=
  ∃ conn p effects, Carries l conn p ∧ p.runId = r.id ∧ finalizeRunUow conn p db = .ok effects db' ∧
    endedRun r conn.now p.outcome p.summary ∈ db'.runs

/-- The store is as it was, or a unit of work in `P` finalized a run. -/
def FinalizesOf (P : Conn → FinalizeRun → Prop) (db db' : Db) : Prop :=
  db' = db ∨ ∃ conn p effects, P conn p ∧ finalizeRunUow conn p db = .ok effects db'

instance (P : Conn → FinalizeRun → Prop) : Std.Refl (FinalizesOf P) := ⟨fun _ => .inl rfl⟩

theorem FinalizesOf.commits {lab : Label} (h : FinalizesOf (Carries lab) db db') {r : Run}
    (hr : r ∈ db.runs)
    (hopen : r.isOpen = true) : AllOpen db'.runs r.id ∨ Commits lab r db db' := by
  have hall : AllOpen db.runs r.id := fun s hs hid => Table.eq_of_key_eq hs hr hid ▸ hopen
  rcases h with rfl | ⟨conn, p, effects, hp, h⟩
  · exact .inl hall
  · obtain ⟨run, hfind, -, hend, hothers⟩ := finalizeRunUow_ends h
    by_cases hid : p.runId = r.id
    · have heq : run = r :=
        Table.eq_of_key_eq (Table.mem_of_find? hfind) hr ((Table.key_of_find? hfind).trans hid)
      exact .inr ⟨conn, p, effects, hp, hid, h, heq ▸ hend⟩
    · exact .inl (hothers r.id (Ne.symm hid) hall)

theorem finalizes_uow {P : Conn → FinalizeRun → Prop} {conn : Conn} {p : FinalizeRun}
    (hP : P conn p) (db : Db) : FinalizesOf P db (finalState (finalizeRunUow conn p db)) := by
  cases h : finalizeRunUow conn p db with
  | ok effects db' => exact .inr ⟨conn, p, effects, hP, h⟩
  | error e db' => exact .inl (finalizeRunUow_atomic p _ _ _ h)

theorem FinalizesOrNot.one {P : Conn → FinalizeRun → Prop} {d d' : DaemonState} {runId : Int}
    {outcome : RunOutcome} {summary extraComment : Option String} {kill : Bool}
    (h : FinalizesOrNot cfg env runId outcome summary extraComment kill d d')
    (hP : ∀ plan : TransitionPlan, P env.conn (plan.finalize runId outcome summary extraComment)) :
    FinalizesOf P d.db d'.db := by
  rcases h with rfl | ⟨run, plan, h⟩
  · exact .inl rfl
  · obtain ⟨effects, huow⟩ := h.committed
    exact .inr ⟨_, _, effects, hP plan, huow⟩

theorem finalizes_cancelQueued (cardId : Int) (d : DaemonState) :
    FinalizesOf (Carries (.request env (.runCancelQueued cardId))) d.db
      (finalState (cancelQueued env cardId d)).db := by
  rw [cancelQueued, db_store_bind fun _ _ => rfl]
  refine readOnly_get.bind_at fun db _ => (readOnly_okOr _ _).bind_at fun queued _ => ?_
  exact finalizes_uow (.cancel env cardId queued.id) d.db

/-- A step that finalizes runs leaves the store as it was, or carries out one of its
units of work. -/
theorem finalizes_step (w : World) (l : Label) (hl : ∃ conn p, Carries l conn p)
    (hdue : ∀ env c now, l = .watch env (.candidate c now) → c.timedOut = true) :
    FinalizesOf (Carries l) w.daemon.db (w.next cfg l).daemon.db := by
  obtain ⟨conn, p, hcarries⟩ := hl
  cases hcarries with
  | finalizeRun env runId outcome summary extra kill transition plan =>
      exact (finalizeRun_cases w.daemon).one fun plan =>
        .finalizeRun env runId outcome summary extra kill transition plan
  | timeout env c now message plan =>
      show FinalizesOf _ w.daemon.db (applyCandidate cfg env c now w.daemon).db
      unfold applyCandidate
      rw [if_pos (hdue env c now rfl)]
      exact (finalizeRunInner_cases _ w.daemon).one fun plan => .timeout env c now _ plan
  | spawnFailed env claimed reason =>
      show FinalizesOf _ w.daemon.db (serveDispatch cfg env w (.failed claimed reason)).daemon.db
      simp only [serveDispatch]
      split
      · rw [failQueuedRun, db_store_bind fun _ _ => rfl]
        exact finalizes_uow (.spawnFailed env claimed reason) w.daemon.db
      · exact .inl rfl
  | cancel env cardId runId => exact finalizes_cancelQueued cardId w.daemon

/-- A step leaves an open run open, or carries out its finalization of it. -/
theorem ends_by_commit (hinv : Inv (life w.daemon.db.toTables)) (l : Label) {r : Run}
    (hr : r ∈ w.daemon.db.runs) (hopen : r.isOpen = true) :
    AllOpen (w.next cfg l).daemon.db.runs r.id ∨
    Commits l r w.daemon.db (w.next cfg l).daemon.db := by
  have hall : AllOpen w.daemon.db.runs r.id := fun s hs hid => Table.eq_of_key_eq hs hr hid ▸ hopen
  have hvia := via_step_daemon cfg hinv l
  -- a step that causes no finalization leaves every run open
  have hkeeps (hcauses : ∀ e, StepCauses cfg w.daemon.db l e →
      e ≠ .finish r.id ∧ ∀ next, e ≠ .hop r.id next) : AllOpen (w.next cfg l).daemon.db.runs r.id :=
    hvia.keeps_open hall (fun h => (hcauses _ h).1 rfl) fun next h => (hcauses _ h).2 next rfl
  cases l with
  | request env req =>
      cases req with
      | runCancelQueued cardId =>
          exact (finalizes_step w _ ⟨_, _, .cancel env cardId 0⟩ (by simp)).commits hr hopen
      | _ =>
          refine .inl (hkeeps fun e he => ?_)
          cases stepCauses_request.mp he <;> simp
  | watch env x =>
      cases x with
      | finalizeRun runId outcome summary extra kill transition =>
          exact (finalizes_step w _
            ⟨_, _, .finalizeRun env runId outcome summary extra kill transition
            (stayPut outcome)⟩ (by simp)).commits hr hopen
      | candidate c now =>
          by_cases hdue : c.timedOut = true
          · refine (finalizes_step w _ ⟨_, _, .timeout env c now "" (stayPut .fail)⟩ ?_).commits hr
              hopen
            rintro _ _ _ ⟨⟩
            exact hdue
          · refine .inl ?_
            show AllOpen (applyCandidate cfg env c now w.daemon).db.runs r.id
            unfold applyCandidate
            rw [if_neg hdue]
            split
            · exact (via_applySignalGuarded (E := fun e => e = .signal c.runId) hinv rfl).keeps_open
                hall (by simp) (by simp)
            · exact hall
      | signal runId cardId signal =>
          refine .inl (hkeeps fun e he => ?_)
          cases stepCauses_watch.mp he
          simp
      | _ =>
          refine .inl (hkeeps fun e he => ?_)
          cases stepCauses_watch.mp he
  | dispatch env x =>
      cases x with
      | failed claimed reason =>
          exact (finalizes_step w _ ⟨_, _, .spawnFailed env claimed reason⟩
            (by simp)).commits hr hopen
      | _ =>
          refine .inl (hkeeps fun e he => ?_)
          cases he <;> simp
  | adopt env x =>
      refine .inl (hkeeps fun e he => ?_)
      cases he
  | restart => exact .inl hall

/-! ## Finalizers of one run -/

/-- The run of the id, if there is one, has ended. -/
def Ended (db : Db) (runId : Int) : Prop := ∀ run, db.run? runId = some run → run.isOpen = false

theorem ended_of_mem {r : Run} (hr : r ∈ db.runs) (hend : r.isOpen = false) : Ended db r.id := by
  intro run hfind
  rw [Table.eq_of_key_eq (Table.mem_of_find? hfind) hr (Table.key_of_find? hfind)]
  exact hend

theorem FinalizesOrNot.noop {d d' : DaemonState} {runId : Int} {outcome : RunOutcome}
    {summary extraComment : Option String} {kill : Bool}
    (h : FinalizesOrNot cfg env runId outcome summary extraComment kill d d')
    (hend : Ended d.db runId) : d' = d := by
  rcases h with h | ⟨run, plan, h⟩
  · exact h
  · exact absurd h.isOpen (by simp [hend run h.found])

theorem failQueuedRun_noop {runId : Int} {reason : String} {d : DaemonState}
    (hend : Ended d.db runId) : finalState (failQueuedRun env runId reason d) = d := by
  rw [failQueuedRun, finalState_bind_readOnly fun _ => readOnly_pure _]
  cases h : store (finalizeRunUow env.conn
      { runId, outcome := .fail, summary := some reason, comments := [("system", reason)],
        targetColumnId := none, finalStatus := .failed, finalAwaitingReason := none, next := none })
          d with
  | ok effects d' =>
      obtain ⟨db, huow, -⟩ := store_ok.mp h
      obtain ⟨run, hfind, hopen, -⟩ := finalizeRunUow_ends huow
      exact absurd hopen (by simp [hend run hfind])
  | error e d' => exact atomic_store (finalizeRunUow_atomic _) _ _ _ h

/-- A finalizer of a run changes nothing once the run has ended. -/
theorem Finalizer.noop {runId : Int} {l : Label} (hl : Finalizer runId l)
    (hend : Ended w.daemon.db runId) : (w.next cfg l).daemon = w.daemon := by
  cases hl with
  | finalizeRun env outcome summary extra kill transition =>
      exact (finalizeRun_cases w.daemon).noop hend
  | timeout env c now hcid hdue =>
      show applyCandidate cfg env c now w.daemon = w.daemon
      unfold applyCandidate
      rw [if_pos hdue]
      exact (finalizeRunInner_cases _ w.daemon).noop (hcid ▸ hend)
  | spawnFailed env claimed reason hcid =>
      show (serveDispatch cfg env w (.failed claimed reason)).daemon = w.daemon
      simp only [serveDispatch]
      split
      · exact failQueuedRun_noop (hcid ▸ hend)
      · rfl

/-! ## Finalizers of an open run -/

/-- The steps that finalize the open run: its finalizers, and the cancellation of its card while
it is queued. -/
inductive Finishes (r : Run) : Label → Prop
  | finalizer {l : Label} (h : Finalizer r.id l) : Finishes r l
  | cancel (env : Env) (hqueued : r.startedAt = none) :
      Finishes r (.request env (.runCancelQueued r.cardId))

/-- What the timeout ticker writes about a run that it ends. -/
def timeoutMessage (c : Candidate) : String :=
  s!"run timed out after {formatDuration (some (c.elapsed / 1000))}; applying on_fail"

/-- Whether the call behind the step answers that it finalized a run. -/
def reports (cfg : Config) (w : World) : Label → Bool
  | .watch env (.finalizeRun runId outcome summary extraComment kill transition) =>
      succeeded (finalizeRun cfg env runId outcome summary extraComment kill transition w.daemon)
  | .watch env (.candidate c now) =>
      match finalizeRunTimeout cfg env c.runId now .fail (some (timeoutMessage c))
        (some (timeoutMessage c)) true true w.daemon with
      | .ok finished _ => finished.isSome
      | .error _ _ => false
  | .dispatch env (.failed claimed reason) =>
      claimed ∈ w.launching && succeeded (failQueuedRun env claimed.1.id reason w.daemon)
  | .request env (.runCancelQueued cardId) => succeeded (cancelQueued env cardId w.daemon)
  | _ => false

/-- What lets the step finalize the open run: it is still due, or claimed, and its finalization
is accepted. -/
def Permits (cfg : Config) (w : World) (r : Run) : Label → Prop
  | .watch env (.finalizeRun _ outcome _ _ _ transition) =>
      FinalizeAccepted cfg env transition outcome r w.daemon
  | .watch env (.candidate _ now) =>
      timeoutStale w.daemon r now = false ∧ FinalizeAccepted cfg env true .fail r w.daemon
  | .dispatch env (.failed claimed _) =>
      claimed ∈ w.launching ∧ env.conn.Passes .finalizeAfterRunUpdate
  | .request env (.runCancelQueued _) => env.conn.Passes .finalizeAfterRunUpdate
  | _ => False

/-- Under `accepted` the step answers that it finalized the run, and did; otherwise it
changes nothing. -/
def Settles (cfg : Config) (w : World) (r : Run) (l : Label) (accepted : Prop) : Prop :=
  (accepted ∧ reports cfg w l = true ∧ Commits l r w.daemon.db (w.next cfg l).daemon.db) ∨
    (¬accepted ∧ reports cfg w l = false ∧ (w.next cfg l).daemon = w.daemon)

section Settles

variable {r : Run} {l : Label}

theorem commits_of_uow {conn : Conn} {p : FinalizeRun} {effects : FinalizeEffects}
    (hcarries : Carries l conn p)
    (hid : p.runId = r.id) (hr : r ∈ db.runs) (h : finalizeRunUow conn p db = .ok effects db') :
    Commits l r db db' := by
  obtain ⟨run, hfind, -, hend, -⟩ := finalizeRunUow_ends h
  have heq : run = r :=
    Table.eq_of_key_eq (Table.mem_of_find? hfind) hr ((Table.key_of_find? hfind).trans hid)
  exact ⟨conn, p, effects, hcarries, hid, h, heq ▸ hend⟩

theorem settles_finalizeRun (hr : r ∈ w.daemon.db.runs) (hopen : r.isOpen = true) (env : Env)
    (outcome : RunOutcome) (summary extraComment : Option String) (kill transition : Bool) :
    Settles cfg w r (.watch env (.finalizeRun r.id outcome summary extraComment kill transition))
      (FinalizeAccepted cfg env transition outcome r w.daemon) := by
  have hfind : w.daemon.db.run? r.id = some r := Table.find?_key hr
  obtain ⟨card, hcard⟩ := card_of_run hr
  have hnext : (w.next cfg
      (.watch env (.finalizeRun r.id outcome summary extraComment kill transition))).daemon =
      finalState (finalizeRun cfg env r.id outcome summary extraComment kill transition w.daemon) :=
    rfl
  by_cases haccepted : FinalizeAccepted cfg env transition outcome r w.daemon
  · obtain ⟨finished, d', hinner, plan, effects, huow, -⟩ :=
      @finalizeRunInner_accepted cfg env w.daemon r.id outcome
      summary extraComment kill transition none r card hfind hopen rfl hcard haccepted
    have hrun : finalizeRun cfg env r.id outcome summary extraComment kill transition w.daemon =
        .ok finished d' :=
      bind_run hinner
    refine .inl ⟨haccepted, by simp [reports, hrun, succeeded], ?_⟩
    rw [hnext, hrun]
    exact commits_of_uow
      (.finalizeRun env r.id outcome summary extraComment kill transition plan) rfl hr huow
  · obtain ⟨e, hinner⟩ :=
      @finalizeRunInner_refused cfg env w.daemon r.id outcome summary extraComment kill transition
      none r hfind hopen rfl haccepted
    have hrun : finalizeRun cfg env r.id outcome summary extraComment kill transition w.daemon =
        .error e w.daemon :=
      bind_error hinner
    refine .inr ⟨haccepted, by simp [reports, hrun, succeeded], ?_⟩
    rw [hnext, hrun]
    rfl

theorem settles_timeout (hr : r ∈ w.daemon.db.runs) (hopen : r.isOpen = true) (env : Env)
    {c : Candidate} (now : Instant) (hid : c.runId = r.id) (hdue : c.timedOut = true) :
    Settles cfg w r (.watch env (.candidate c now))
      (timeoutStale w.daemon r now = false ∧ FinalizeAccepted cfg env true .fail r w.daemon) := by
  have hfind : w.daemon.db.run? c.runId = some r := hid ▸ Table.find?_key hr
  obtain ⟨card, hcard⟩ := card_of_run hr
  have hnext : (w.next cfg (.watch env (.candidate c now))).daemon =
      finalState (finalizeRunInner cfg env c.runId .fail (some (timeoutMessage c))
        (some (timeoutMessage c)) true true (some now) w.daemon) := by
    show applyCandidate cfg env c now w.daemon = _
    rw [applyCandidate, if_pos hdue]
    rfl
  cases hstale : timeoutStale w.daemon r now with
  | true =>
      have hrun := @finalizeRunInner_none cfg env w.daemon c.runId .fail (some (timeoutMessage c))
        (some (timeoutMessage c)) true true (some now) r hfind hopen hstale
      refine .inr ⟨by simp, by simp [reports, finalizeRunTimeout, hrun], ?_⟩
      rw [hnext, hrun]
      rfl
  | false =>
      by_cases haccepted : FinalizeAccepted cfg env true .fail r w.daemon
      · obtain ⟨finished, d', hrun, plan, effects, huow, -⟩ :=
          @finalizeRunInner_accepted cfg env w.daemon c.runId .fail
          (some (timeoutMessage c)) (some (timeoutMessage c)) true true (some now) r card hfind
            hopen hstale hcard haccepted
        refine .inl ⟨⟨rfl, haccepted⟩, by simp [reports, finalizeRunTimeout, hrun], ?_⟩
        rw [hnext, hrun]
        exact commits_of_uow (.timeout env c now _ plan) hid hr huow
      · obtain ⟨e, hrun⟩ :=
          @finalizeRunInner_refused cfg env w.daemon c.runId .fail (some (timeoutMessage c))
          (some (timeoutMessage c)) true true (some now) r hfind hopen hstale haccepted
        refine .inr ⟨fun h => haccepted h.2, by simp [reports, finalizeRunTimeout, hrun], ?_⟩
        rw [hnext, hrun]
        rfl

theorem settles_failed (hr : r ∈ w.daemon.db.runs) (hopen : r.isOpen = true) (env : Env)
    {claimed : Run × Card} (reason : String) (hid : claimed.1.id = r.id) :
    Settles cfg w r (.dispatch env (.failed claimed reason))
      (claimed ∈ w.launching ∧ env.conn.Passes .finalizeAfterRunUpdate) := by
  have hfind : w.daemon.db.run? claimed.1.id = some r := hid ▸ Table.find?_key hr
  by_cases hin : claimed ∈ w.launching
  · have hnext : (w.next cfg (.dispatch env (.failed claimed reason))).daemon =
        finalState (failQueuedRun env claimed.1.id reason w.daemon) := by
      show (serveDispatch cfg env w (.failed claimed reason)).daemon = _
      rw [serveDispatch, if_pos hin]
    rcases finalizeRunUow_cases env.conn (spawnFailure claimed.1.id reason) hfind hopen rfl
      rfl rfl rfl with ⟨hpass, effects, db', huow⟩ | ⟨hfault, e, huow⟩
    · have hrun : failQueuedRun env claimed.1.id reason w.daemon = .ok ()
          { w.daemon with db := db' } :=
        bind_run (store_ok.mpr ⟨db', huow, rfl⟩)
      refine .inl ⟨⟨hin, hpass⟩, by simp [reports, hin, hrun, succeeded], ?_⟩
      rw [hnext, hrun]
      exact commits_of_uow (.spawnFailed env claimed reason) hid hr huow
    · have hrun : failQueuedRun env claimed.1.id reason w.daemon = .error e w.daemon :=
        bind_error (store_refused huow)
      refine .inr ⟨fun h => hfault h.2, by simp [reports, hrun, succeeded], ?_⟩
      rw [hnext, hrun]
      rfl
  · refine .inr ⟨fun h => hin h.1, by simp [reports, hin], ?_⟩
    show (serveDispatch cfg env w (.failed claimed reason)).daemon = _
    rw [serveDispatch, if_neg hin]

theorem openRunForCard_of_mem (hr : r ∈ db.runs) (hopen : r.isOpen = true) :
    db.openRunForCard r.cardId = some r := by
  cases hfind : db.openRunForCard r.cardId with
  | none =>
      have hclosed := closed_of_openRunForCard hfind r hr rfl
      rw [hopen] at hclosed
      cases hclosed
  | some run =>
      obtain ⟨hrun, hcard, hrunOpen⟩ := mem_of_openRunForCard hfind
      rw [Db.open_run_unique hrun hr hcard hrunOpen hopen]

theorem settles_cancel (hr : r ∈ w.daemon.db.runs) (hopen : r.isOpen = true)
    (hqueued : r.startedAt = none) (env : Env) :
    Settles cfg w r (.request env (.runCancelQueued r.cardId))
      (env.conn.Passes .finalizeAfterRunUpdate) := by
  have hfind : w.daemon.db.run? r.id = some r := Table.find?_key hr
  have hfound : (w.daemon.db.openRunForCard r.cardId).filter
      (fun run => run.startedAt.isNone) = some r := by
    simp [openRunForCard_of_mem hr hopen, hqueued]
  have hnext : (w.next cfg (.request env (.runCancelQueued r.cardId))).daemon =
      finalState (cancelQueued env r.cardId w.daemon) := rfl
  have hcancel {x : EStateM.Result Error Db FinalizeEffects}
      (huow : finalizeRunUow env.conn (queuedCancellation r.id) w.daemon.db = x) : (do
        let db ← get
        let queued ← okOr ((db.openRunForCard r.cardId).filter fun run => run.startedAt.isNone)
          (.notFound s!"no active or queued run for card {r.cardId}")
        finalizeRunUow env.conn (queuedCancellation queued.id) : StoreM FinalizeEffects)
          w.daemon.db = x := by
    rw [get_bind_run, bind_run (okOr_run hfound _), huow]
  rcases finalizeRunUow_cases env.conn (queuedCancellation r.id) hfind hopen rfl rfl rfl rfl with
    ⟨hpass, effects, db', huow⟩ | ⟨hfault, e, huow⟩
  · have hrun : ∃ d', cancelQueued env r.cardId w.daemon = .ok effects d' ∧ d'.db = db' :=
      ⟨_, bind_run (store_ok.mpr ⟨db', hcancel huow, rfl⟩), rfl⟩
    obtain ⟨d', hrun, hdb⟩ := hrun
    refine .inl ⟨hpass, by simp [reports, hrun, succeeded], ?_⟩
    rw [hnext, hrun, finalState_ok, hdb]
    exact commits_of_uow (.cancel env r.cardId r.id) rfl hr huow
  · have hrun : cancelQueued env r.cardId w.daemon = .error e w.daemon :=
      bind_error (store_refused (hcancel huow))
    refine .inr ⟨hfault, by simp [reports, hrun, succeeded], ?_⟩
    rw [hnext, hrun]
    rfl

/-- A step that finalizes the open run answers so exactly when it is accepted; it does
what it answers. -/
theorem Finishes.settles (h : Finishes r l) (hr : r ∈ w.daemon.db.runs) (hopen : r.isOpen = true) :
    Settles cfg w r l (Permits cfg w r l) := by
  cases h with
  | cancel env hqueued => exact settles_cancel hr hopen hqueued env
  | finalizer h =>
      cases h with
      | finalizeRun env outcome summary extraComment kill transition =>
          exact settles_finalizeRun hr hopen env outcome summary extraComment kill transition
      | timeout env c now hid hdue => exact settles_timeout hr hopen env now hid hdue
      | spawnFailed env claimed reason hid => exact settles_failed hr hopen env reason hid

end Settles

/-- A launch of an ended run kills the process it started. -/
theorem register_kills {runId : Int} (hend : Ended w.daemon.db runId) (env : Env)
    (claimed : Run × Card) (column : Column) (handle : RuntimeHandle) (hin : claimed ∈ w.launching)
    (hid : claimed.1.id = runId) :
    (w.next cfg (.dispatch env (.registered claimed column handle))).daemon =
      w.daemon.kill handle := by
  show (serveDispatch cfg env w (.registered claimed column handle)).daemon = _
  simp only [serveDispatch, if_pos hin]
  rcases registerSpawnedRun_cases env claimed.1.id handle env.instant
    (startDeadlines cfg env column).1 (startDeadlines cfg env column).2 w.daemon with h | ⟨run, h⟩
  · exact h
  · exact absurd (isOpen_of_isQueued h.isQueued) (by simp [hend run (hid ▸ h.found)])

/-! ## Exactly once -/

/-- A step that does not delete the card. -/
def KeepsCard (cardId : Int) (_ : World) (l : Label) : Prop :=
  ∀ env, l ≠ .request env (.cardDelete cardId)

theorem KeepsCard.not_remove {cardId : Int} {l : Label} (h : KeepsCard cardId w l) :
    ¬StepCauses cfg db l (.remove cardId) := by
  intro hcauses
  cases hcauses with
  | request env r _ h' =>
      cases h'
      exact h env rfl
  | watch env x _ h' => cases h'

/-- The row of an ended run does not change in any history that keeps its card. -/
theorem ended_row_kept (hw : (boardd cfg).Reachable w) {r : Run} (hr : r ∈ w.daemon.db.runs)
    (hend : r.isOpen = false) (hs : (boardd cfg).Steps (KeepsCard r.cardId) w w') :
    r ∈ w'.daemon.db.runs := by
  refine (hs.preserves (I := fun w => Inv (life w.daemon.db.toTables) ∧ r ∈ w.daemon.db.runs) ?_
    ⟨inv_of_reachable hw, hr⟩).2
  rintro w l _ ⟨hinv, hr⟩ hok rfl
  have hvia := via_step_daemon cfg hinv l
  exact ⟨hvia.inv hinv, hvia.keeps_ended hr hend hok.not_remove⟩

/-- A run ends once. Each step that finalizes it while it is open either answers that it did, and
carried out its finalization, or leaves everything as it was; afterwards nothing finalizes it again,
and a launch of it is killed. -/
theorem run_finalized_once (hw : (boardd cfg).Reachable w) {r : Run} (hr : r ∈ w.daemon.db.runs) :
    -- while it is open, a step leaves it open or carries out its one finalization of it
    (r.endedAt = none → ∀ l,
      (∀ r' ∈ (w.next cfg l).daemon.db.runs, r'.id = r.id → r'.endedAt = none) ∨
        Commits l r w.daemon.db (w.next cfg l).daemon.db) ∧
    -- a step that finalizes it goes through exactly when it is accepted: it then commits, and
    -- otherwise changes nothing
    (r.endedAt = none → ∀ l, Finishes r l →
      (reports cfg w l = true ↔ Permits cfg w r l) ∧
      (reports cfg w l = true → Commits l r w.daemon.db (w.next cfg l).daemon.db) ∧
      (reports cfg w l = false → (w.next cfg l).daemon = w.daemon)) ∧
    -- once it has ended, its row stays, its finalizers do nothing, and its launch kills the process
    (r.endedAt ≠ none → ∀ w', (boardd cfg).Steps (KeepsCard r.cardId) w w' →
      r ∈ w'.daemon.db.runs ∧
      (∀ l, Finalizer r.id l → (w'.next cfg l).daemon = w'.daemon) ∧
      ∀ env claimed column handle, claimed ∈ w'.launching → claimed.1.id = r.id →
        (w'.next cfg (.dispatch env (.registered claimed column handle))).daemon =
          w'.daemon.kill handle) := by
  refine ⟨fun hopen l => ?_, fun hopen l hl => ?_, fun hend w' hs => ?_⟩
  · refine (ends_by_commit (inv_of_reachable hw) l hr (isOpen_iff.mpr hopen)).imp_left
      fun hall r' hr' hid => ?_
    exact isOpen_iff.mp (hall r' hr' hid)
  · rcases hl.settles hr (isOpen_iff.mpr hopen) with
        ⟨haccepts, hreports, hcommits⟩ | ⟨hrefuses, hreports, hsame⟩
    · exact ⟨iff_of_true hreports haccepts, fun _ => hcommits,
        fun hnot => absurd (hreports.symm.trans hnot) (by simp)⟩
    · exact ⟨iff_of_false (by simp [hreports]) hrefuses,
        fun hdone => absurd (hreports.symm.trans hdone) (by simp), fun _ => hsame⟩
  · have hclosed : r.isOpen = false := Bool.eq_false_iff.mpr fun hopen => hend (isOpen_iff.mp hopen)
    have hr' := ended_row_kept hw hr hclosed hs
    have hended := ended_of_mem hr' hclosed
    exact ⟨hr', fun l hl => hl.noop hended, fun env claimed column handle hin hid =>
      register_kills hended env claimed column handle hin hid⟩

/-- The queued card is claimed. -/
def spawning : World :=
  oneQueuedCard.run oneAtATime [.dispatch permissiveEnv .readActive, .dispatch permissiveEnv .claim]

/-- The queued card is claimed, and cancelled while its process is being spawned. -/
def cancelWhileSpawning : World :=
  oneQueuedCard.run oneAtATime
    [ .dispatch permissiveEnv .readActive, .dispatch permissiveEnv .claim,
      .request permissiveEnv (.runCancelQueued 1) ]

theorem run_finalized_once_cancelled :
    (∃ r ∈ spawning.daemon.db.runs, r.endedAt = none ∧
      Commits (.request permissiveEnv (.runCancelQueued 1)) r spawning.daemon.db
        cancelWhileSpawning.daemon.db) ∧
    ∃ r claimed, r ∈ cancelWhileSpawning.daemon.db.runs ∧
      cancelWhileSpawning.launching = [claimed] ∧ claimed.1.id = r.id ∧
      r.outcome = some .cancelled ∧ ∀ handle column, (cancelWhileSpawning.next oneAtATime
        (.dispatch permissiveEnv (.registered claimed column handle))).daemon =
          cancelWhileSpawning.daemon.kill handle := by
  have hspawning : (boardd oneAtATime).Reachable spawning := reachable_run reachable_oneQueuedCard _
  have hreach : (boardd oneAtATime).Reachable cancelWhileSpawning :=
    reachable_run reachable_oneQueuedCard _
  refine ⟨?_, ?_⟩
  · have hrow : (spawning.daemon.db.run? 1).map (fun r => (r.cardId, r.startedAt, r.endedAt)) =
        some (1, none, none) := by
      decide
    have hreports : reports oneAtATime spawning (.request permissiveEnv (.runCancelQueued 1)) =
        true := by decide
    obtain ⟨r, hfind, hfields⟩ := Option.map_eq_some_iff.mp hrow
    obtain ⟨hcard, hstarted, hended⟩ : r.cardId = 1 ∧ r.startedAt = none ∧ r.endedAt = none := by
      simpa using hfields
    have hr := Table.mem_of_find? hfind
    have hcancel : Finishes r (.request permissiveEnv (.runCancelQueued 1)) :=
      hcard ▸ .cancel permissiveEnv hstarted
    exact ⟨r, hr, hended, ((run_finalized_once hspawning hr).2.1 hended _ hcancel).2.1 hreports⟩
  · have hrow : (cancelWhileSpawning.daemon.db.run? 1).map Run.outcome =
        some (some .cancelled) := by decide
    have hended : (cancelWhileSpawning.daemon.db.run? 1).map Run.isOpen = some false := by decide
    have hclaimed : cancelWhileSpawning.launching.map (fun c => c.1.id) = [1] := by decide
    obtain ⟨r, hfind, houtcome⟩ := Option.map_eq_some_iff.mp hrow
    obtain ⟨claimed, hlaunching, hid⟩ := List.map_eq_singleton_iff.mp hclaimed
    rw [hfind] at hended
    have hr := Table.mem_of_find? hfind
    have hrid : r.id = 1 := Table.key_of_find? hfind
    have hend : r.endedAt ≠ none := fun hnone =>
      absurd (Option.some.inj hended) (by simp [isOpen_iff.mpr hnone])
    obtain ⟨-, -, hkill⟩ := (run_finalized_once hreach hr).2.2 hend _ .refl
    refine ⟨r, claimed, hr, hlaunching, hid.trans hrid.symm, houtcome, fun handle column => ?_⟩
    exact hkill permissiveEnv claimed column handle (by rw [hlaunching]; simp) (hid.trans hrid.symm)

end HerdrBoard.Lifecycle
