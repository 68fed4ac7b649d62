import HerdrBoard.Lifecycle.Watches

/-!
# What launches do to cards and runs, and every step of the daemon

The daemon refines the lifecycle: each of its steps is a sequence of lifecycle events.
-/

open Lib HerdrBoard.Core HerdrBoard.Daemon

namespace HerdrBoard.Lifecycle

variable {cfg : Config} {env : Env} {E : Event → Prop} {d d' : DaemonState}

/-! ## Registering and failing launches -/

/-- The launch a registration records. -/
def launchOfHandle (env : Env) (handle : RuntimeHandle) (deadlineAtMs : Option Int) : Life.Launch :=
  launchOf env.conn handle.workspaceId handle.paneId handle.anchorPaneId deadlineAtMs
    handle.capturedSessionId

/-- The watch entry a registration inserts. -/
def registeredEntry (cardId : Int) (handle : RuntimeHandle) (started : Instant)
    (deadline : Option Instant) :
    ActiveRun :=
  { cardId, handle, started, timeoutDeadline := deadline, idleSince := none, awaitingSince := none,
    isLocal := handle.pid.isSome, paneId := handle.paneId }

/-- A registration that promoted its run. -/
structure Registers (env : Env) (runId : Int) (handle : RuntimeHandle) (started : Instant)
    (deadline : Option Instant) (deadlineAtMs : Option Int) (run : Run) (d d' : DaemonState) :
    Prop where
  found : d.db.run? runId = some run
  isQueued : run.isQueued = true
  promoted : life d'.db.toTables = (life d.db.toTables).promote run
    (launchOfHandle env handle deadlineAtMs)
  settled : d' = { d with
    db := d'.db
    sched.active := d.sched.active.insert runId
      (registeredEntry run.cardId handle started deadline) }

theorem tryRegister_cases (env : Env) (runId : Int) (handle : RuntimeHandle) (started : Instant)
    (deadline : Option Instant) (deadlineAtMs : Option Int) (d : DaemonState) :
    (∃ e, tryRegister env runId handle started deadline deadlineAtMs d = .error e d) ∨
    tryRegister env runId handle started deadline deadlineAtMs d = .ok false d ∨
    ∃ run d', tryRegister env runId handle started deadline deadlineAtMs d = .ok true d' ∧
      Registers env runId handle started deadline deadlineAtMs run d d' := by
  cases h : tryRegister env runId handle started deadline deadlineAtMs d with
  | error e d' =>
      have hatomic : Atomic (tryRegister env runId handle started deadline deadlineAtMs) := by
        refine (readOnly_store (readOnly_getRun _)).bind_atomic fun run =>
          readOnly_get.bind_atomic fun d => ?_
        refine atomic_ite (total_pure _).atomic ((readOnly_okOr _ _).bind_atomic fun card => ?_)
        refine (atomic_store promoteRunWithAnchorUow_atomic).bind_total fun _ => ?_
        exact (total_modify _).bind fun _ => total_pure _
      exact .inl ⟨e, by rw [hatomic d e d' h]⟩
  | ok b d' =>
      simp only [tryRegister, bind_ok, store_ok, getRun_ok, get_ok, ite_ok, pure_ok, okOr_ok,
        modify_ok] at h
      obtain ⟨run, _, ⟨_, ⟨hrun, rfl⟩, rfl⟩, _, _, ⟨rfl, rfl⟩, ⟨-, rfl, rfl⟩ | ⟨hqueued, h⟩⟩ := h
      · exact .inr (.inl rfl)
      · obtain ⟨card, _, ⟨hcard, rfl⟩, promoted, _, ⟨db, hpromote, rfl⟩, _, _, rfl, rfl, rfl⟩ := h
        obtain ⟨run', hfind, hq, hlife⟩ := life_promote hpromote
        cases hrun.symm.trans hfind
        have hcardId : card.id = run.cardId := Table.key_of_find? hcard
        refine .inr (.inr ⟨run, _, rfl, hrun, hq, hlife, ?_⟩)
        rw [← hcardId]
        rfl

/-- A registration kills the process it was for, or promotes the run. -/
theorem registerSpawnedRun_cases (env : Env) (runId : Int) (handle : RuntimeHandle)
    (started : Instant) (deadline : Option Instant) (deadlineAtMs : Option Int) (d : DaemonState) :
    finalState (registerSpawnedRun env runId handle started deadline deadlineAtMs d) =
      d.kill handle ∨ ∃ run, Registers env runId handle started deadline deadlineAtMs run d
        (finalState (registerSpawnedRun env runId handle started deadline deadlineAtMs d)) := by
  unfold registerSpawnedRun
  rcases tryRegister_cases env runId handle started deadline deadlineAtMs d with
      ⟨e, h⟩ | h | ⟨run, d', h, hreg⟩
  · rw [h]
    exact .inl rfl
  · rw [h]
    exact .inl rfl
  · rw [h]
    exact .inr ⟨run, hreg⟩

theorem Registers.via {runId : Int} {handle : RuntimeHandle} {started : Instant} {run : Run}
    {deadline : Option Instant} {deadlineAtMs : Option Int}
    (h : Registers env runId handle started deadline deadlineAtMs run d d')
    (hE : E (.promote runId (launchOfHandle env handle deadlineAtMs))) : Via E d.db d'.db := by
  have hid : run.id = runId := Table.key_of_find? h.found
  exact via_step (hid ▸ hE) (.promote run _ (Table.mem_of_find? h.found) h.isQueued) h.promoted

/-- Failing a launch is one event, and leaves the watched runs alone. -/
theorem served_failQueuedRun (runId : Int) (reason : String) (d : DaemonState)
    (hE : E (.finish runId)) : Served E d (finalState (failQueuedRun env runId reason d)) := by
  rw [failQueuedRun, finalState_bind_readOnly fun _ => readOnly_pure _]
  exact served_store (via_finalize hE rfl rfl (.inr (.inl rfl)) d.db)

/-! ## Every step -/

/-- The events a watcher may cause on this store. -/
inductive WatchCauses (cfg : Config) (env : Env) (db : Db) : Watch → Event → Prop
  | finish (runId : Int) (outcome : RunOutcome) (summary extraComment : Option String)
      (kill transition : Bool) :
      WatchCauses cfg env db (.finalizeRun runId outcome summary extraComment kill transition)
        (.finish runId)
  | hop (runId : Int) (outcome : RunOutcome) (summary extraComment : Option String)
      (kill transition : Bool)
      (run : Run) (next : EnqueueRun) (hrun : db.run? runId = some run)
      (h : Planned cfg env db run.cardId next) :
      WatchCauses cfg env db (.finalizeRun runId outcome summary extraComment kill transition)
        (.hop runId next)
  | timeout (c : Candidate) (now : Instant) :
      WatchCauses cfg env db (.candidate c now) (.finish c.runId)
  | timeoutHop (c : Candidate) (now : Instant) (run : Run) (next : EnqueueRun)
      (hrun : db.run? c.runId = some run) (h : Planned cfg env db run.cardId next) :
      WatchCauses cfg env db (.candidate c now) (.hop c.runId next)
  | idle (c : Candidate) (now : Instant) :
      WatchCauses cfg env db (.candidate c now) (.signal c.runId)
  | signal (runId cardId : Int) (signal : AgentSignal) :
      WatchCauses cfg env db (.signal runId cardId signal) (.signal runId)

/-- The events a step may cause on this store. -/
inductive StepCauses (cfg : Config) (db : Db) : Label → Event → Prop
  | request (env : Env) (r : Request) (e : Event) (h : Causes cfg env db r e) :
      StepCauses cfg db (.request env r) e
  | watch (env : Env) (x : Watch) (e : Event) (h : WatchCauses cfg env db x e) :
      StepCauses cfg db (.watch env x) e
  | registered (env : Env) (claimed : Run × Card) (column : Column) (handle : RuntimeHandle) :
      StepCauses cfg db (.dispatch env (.registered claimed column handle))
        (.promote claimed.1.id (launchOfHandle env handle (startDeadlines cfg env column).2))
  | failed (env : Env) (claimed : Run × Card) (reason : String) :
      StepCauses cfg db (.dispatch env (.failed claimed reason)) (.finish claimed.1.id)

@[simp] theorem stepCauses_request {db : Db} {r : Request} {e : Event} :
    StepCauses cfg db (.request env r) e ↔ Causes cfg env db r e := by
  constructor
  · intro h
    cases h with
    | request _ _ _ h => exact h
  · exact .request env r e

@[simp] theorem stepCauses_watch {db : Db} {x : Watch} {e : Event} :
    StepCauses cfg db (.watch env x) e ↔ WatchCauses cfg env db x e := by
  constructor
  · intro h
    cases h with
    | watch _ _ _ h => exact h
  · exact .watch env x e

theorem FinalizesOrNot.via {runId : Int} {outcome : RunOutcome}
    {summary extraComment : Option String}
    {kill : Bool} (h : FinalizesOrNot cfg env runId outcome summary extraComment kill d d')
    (hE : E (.finish runId)) (hE' : ∀ run next, d.db.run? runId = some run →
      Planned cfg env d.db run.cardId next → E (.hop runId next)) : Via E d.db d'.db := by
  rcases h with rfl | ⟨run, plan, h⟩
  · exact refl_of (Via E) _
  · exact h.via hE fun next => hE' run next h.found

theorem via_applySignalGuarded (hinv : Inv (life d.db.toTables)) {runId cardId : Int}
    {signal : AgentSignal} {guard : SignalGuard} (hE : E (.signal runId)) :
    Via E d.db (applySignalGuarded env runId cardId signal guard d).db := by
  rcases @applySignalGuarded_cases env runId cardId signal guard d with h | ⟨_, _, _, _, h⟩
  · rw [h]
    exact refl_of (Via E) _
  · exact h.via hinv hE

@[simp] theorem setIdle_db (runId : Int) (idle : Option Instant) :
    (setIdle runId idle d).db = d.db := by
  unfold setIdle
  split <;> rfl

@[simp] theorem armIdle_db (runId : Int) : (armIdle env runId d).db = d.db := by
  unfold armIdle
  split
  · split
    · rfl
    · exact setIdle_db runId _
  · rfl

theorem via_watch (hinv : Inv (life d.db.toTables)) (x : Watch) :
    Via (WatchCauses cfg env d.db x) d.db (serveWatch cfg env d x).db := by
  cases x with
  | finalizeRun runId outcome summary extra kill transition =>
      refine (finalizeRun_cases d).via (.finish _ _ _ _ _ _) fun run next hrun hnext => ?_
      exact .hop _ _ _ _ _ _ run next hrun hnext
  | candidate c now =>
      show Via _ d.db (applyCandidate cfg env c now d).db
      unfold applyCandidate
      split
      · refine (finalizeRunInner_cases _ d).via (.timeout _ _) fun run next hrun hnext => ?_
        exact .timeoutHop _ _ run next hrun hnext
      · split
        · exact via_applySignalGuarded hinv (.idle _ _)
        · exact refl_of (Via _) _
  | signal runId cardId signal => exact via_applySignalGuarded hinv (.signal _ _ _)
  | clearIdle runId =>
      show Via _ d.db (setIdle runId none d).db
      rw [setIdle_db]
      exact refl_of (Via _) _
  | armIdle runId =>
      show Via _ d.db (armIdle env runId d).db
      rw [armIdle_db]
      exact refl_of (Via _) _
  | forget runId =>
      show Via _ d.db (if runOpen d runId then d else _).db
      split <;> exact refl_of (Via _) _

theorem via_dispatch (w : World) (x : Dispatch) :
    Via (StepCauses cfg w.daemon.db (.dispatch env x)) w.daemon.db
      (serveDispatch cfg env w x).daemon.db := by
  cases x with
  | readActive =>
      simp only [serveDispatch]
      split <;> exact refl_of (Via _) _
  | claim =>
      simp only [serveDispatch]
      cases w.pass <;> exact refl_of (Via _) _
  | registered claimed column handle =>
      simp only [serveDispatch]
      split
      · rcases registerSpawnedRun_cases env claimed.1.id handle env.instant
            (startDeadlines cfg env column).1
          (startDeadlines cfg env column).2 w.daemon with h | ⟨run, h⟩
        · rw [h]
          exact refl_of (Via _) _
        · exact h.via (.registered _ _ _ _)
      · exact refl_of (Via _) _
  | failed claimed reason =>
      simp only [serveDispatch]
      split
      · exact (served_failQueuedRun claimed.1.id reason w.daemon (.failed _ _ _)).1
      · exact refl_of (Via _) _
  | abandoned claimed => exact refl_of (Via _) _
  | warned cardId body =>
      exact (served_keeps (keeps_addComment commentBlind_life env.conn cardId "system" body)
        w.daemon).1

theorem adopt_db (w : World) (x : Adopt) : (serveAdopt env w x).daemon.db = w.daemon.db := by
  cases x with
  | observe a =>
      simp only [serveAdopt]
      cases sameOpenRun w.daemon.db a.run a.cardId <;> rfl
  | insert a =>
      simp only [serveAdopt]
      split
      · split
        · rfl
        · unfold insertReconciled
          split <;> rfl
      · rfl

/-- Each step of the daemon is a sequence of lifecycle events. -/
theorem via_step_daemon (cfg : Config) {w : World} (hinv : Inv (life w.daemon.db.toTables))
    (l : Label) : Via (StepCauses cfg w.daemon.db l) w.daemon.db (w.next cfg l).daemon.db := by
  cases l with
  | request env r => exact (served_request w.daemon r).1.mono fun e h => .request env r e h
  | watch env x => exact (via_watch hinv x).mono fun e h => .watch env x e h
  | dispatch env x => exact via_dispatch w x
  | adopt env x =>
      show Via _ _ (serveAdopt env w x).daemon.db
      rw [adopt_db]
      exact refl_of (Via _) _
  | restart => exact refl_of (Via _) _

/-! ## Reachable states -/

theorem inv_fresh : Inv (life Db.fresh.toTables) where
  card c hc := by cases hc
  owned r hr := by cases hr

/-- The lifecycle invariant holds in every state the daemon reaches, whatever condition
its steps met. -/
theorem inv_of_reachable {ok : World → Label → Prop} {w : World}
    (h : (boardd cfg).ReachableBy ok w) : Inv (life w.daemon.db.toTables) := by
  refine h.invariant (I := fun w => Inv (life w.daemon.db.toTables)) ?_ ?_
  · rintro w rfl
    exact inv_fresh
  · rintro w l _ hinv - rfl
    exact (via_step_daemon cfg hinv l).inv hinv

end HerdrBoard.Lifecycle
