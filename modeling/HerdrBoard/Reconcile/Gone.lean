import HerdrBoard.Reconcile.Sightings
import HerdrBoard.Lifecycle.Finalization

/-!
# Reconciliation ends only runs that are gone
-/

open Lib HerdrBoard.Core HerdrBoard.Daemon HerdrBoard.Lifecycle

namespace HerdrBoard.Reconcile

variable {cfg : Config} {env : Env} {defaultSocket : String} {E : Event → Prop} {db db' : Db}
  {d d' : DaemonState} {s : Reconciling}

/-! ## Omitted panes -/

theorem snapshotPaneStatuses_none {snapshot : SessionSnapshot} {paneId : String} :
    snapshotPaneStatuses snapshot paneId = none ↔
      ∀ pane ∈ snapshot.panes, pane.paneId ≠ paneId := by
  simp [snapshotPaneStatuses]

/-- The session behind the socket answered with a snapshot that lists no such pane. -/
def Omits (herdr : Herdr) (socket paneId : String) : Prop :=
  ∃ snapshot, herdr.connectChecked socket = .ok () ∧ herdr.sessionSnapshot socket = .ok snapshot ∧
    ∀ pane ∈ snapshot.panes, pane.paneId ≠ paneId

theorem omits_of_answered {seen : Sighting} {herdr : Herdr} (h : Answered seen)
    (hherdr : seen.snapshot = some herdr)
    (hstatus : seen.status = none) : Omits herdr seen.socket seen.paneId := by
  obtain ⟨snapshot, hconnect, hsession, hpanes⟩ := h herdr hherdr
  exact ⟨snapshot, hconnect, hsession, snapshotPaneStatuses_none.mp (hpanes.trans hstatus)⟩

/-- The task saw a snapshot without the pane of this run, which is on that pane: of the socket the
run's session resolves to for `reconcile_once`, of the socket its watch entry names for
`reconcile_socket`. -/
inductive FoundGone (defaultSocket : String) : Task → Run → Prop
  | supervisor {run observed : Run} {cardId : Int} {seen : Sighting} {herdr : Herdr}
      (hid : run.id = observed.id)
      (hsession : run.session = observed.session) (hpane : run.herdrPaneId = observed.herdrPaneId)
      (hseen : run.herdrPaneId = some seen.paneId) (hherdr : seen.snapshot = some herdr)
      (hsocket : (resolveTarget defaultSocket herdr run.session).socket = some seen.socket)
      (homits : Omits herdr seen.socket seen.paneId) :
      FoundGone defaultSocket (.gone observed cardId seen) run
  | watcher {run : Run} {entry : ActiveRun} {seen : Sighting} {herdr : Herdr}
      (hpane : run.herdrPaneId = entry.paneId)
      (hseen : run.herdrPaneId = some seen.paneId) (hherdr : seen.snapshot = some herdr)
      (hsocket : effectiveHerdrSocket defaultSocket entry.handle.herdrSocket = seen.socket)
      (homits : Omits herdr seen.socket seen.paneId) :
      FoundGone defaultSocket (.closing run.id entry seen) run

/-! ## Ending a run -/

/-- A run was open, and the run of its id is ended. -/
def Ends (run : Run) (db db' : Db) : Prop :=
  run ∈ db.runs ∧ run.endedAt = none ∧ ∃ run' ∈ db'.runs, run'.id = run.id ∧ run'.endedAt ≠ none

theorem not_ends_refl (run : Run) (db : Db) : ¬Ends run db db := by
  rintro ⟨hrun, hopen, run', hrun', hid, hended⟩
  exact hended (Table.eq_of_key_eq hrun' hrun hid ▸ hopen)

theorem not_ends_of_via {run : Run} (h : Via E db db') (hfinish : ¬E (.finish run.id))
    (hhop : ∀ next, ¬E (.hop run.id next)) : ¬Ends run db db' := by
  rintro ⟨hrun, hopen, run', hrun', hid, hended⟩
  have hall : AllOpen db.runs run.id := by
    intro r hr hrid
    rw [Table.eq_of_key_eq hr hrun hrid]
    exact isOpen_iff.mpr hopen
  exact hended (isOpen_iff.mp (h.keeps_open hall hfinish hhop run' hrun' hid))

theorem not_ends_signalSeen (hinv : Inv (life d.db.toTables)) (run : Run) (runId cardId : Int)
    (seen : Sighting) : ¬Ends run d.db (signalSeen env runId cardId seen d).db := by
  unfold signalSeen
  split
  · exact not_ends_of_via (via_applySignalGuarded (E := (· = .signal runId)) hinv rfl)
      (by simp) (by simp)
  · exact not_ends_refl run d.db

theorem ends_finalizeGone {run : Run} {runId : Int} {message : String}
    (h : Ends run d.db (finalizeGone cfg env runId message d).db) : run.id = runId := by
  by_contra hne
  have hvia : Via (fun e => e = .finish runId ∨ ∃ next, e = .hop runId next) d.db
      (finalizeGone cfg env runId message d).db :=
    (finalizeRun_cases d).via (.inl rfl) fun _ next _ _ => .inr ⟨next, rfl⟩
  exact not_ends_of_via hvia (by simp [hne]) (by simp [hne]) h

theorem finalizeGone_cases (runId : Int) (message : String) (d : DaemonState) :
    (finalizeGone cfg env runId message d).db = d.db ∨
      ∃ run, Ends run d.db (finalizeGone cfg env runId message d).db := by
  have hcases : FinalizesOrNot cfg env runId .fail (some message) (some message) false d
      (finalizeGone cfg env runId message d) := finalizeRun_cases d
  rcases hcases with h | ⟨run, plan, h⟩
  · exact .inl (congrArg DaemonState.db h)
  · obtain ⟨effects, huow⟩ := h.committed
    obtain ⟨ended, hfind, hopen, hmem, -⟩ := finalizeRunUow_ends huow
    refine .inr ⟨ended, Table.mem_of_find? hfind, isOpen_iff.mp hopen, _, hmem, rfl, ?_⟩
    simp [endedRun]

/-- Only the last scope of a task that found a run gone ends a run. -/
theorem ends_of_task {t : Task} {run : Run} (hinv : Inv (life d.db.toTables))
    (h : Ends run d.db (t.next cfg defaultSocket env d).1.db) :
    (∃ observed cardId seen, t = .gone observed cardId seen ∧ run.id = observed.id) ∨
      ∃ entry seen, t = .closing run.id entry seen := by
  cases t with
  | probing observed cardId => exact absurd h (not_ends_refl _ _)
  | observed observed cardId herdr =>
      simp only [Task.next] at h
      split at h <;> exact absurd h (not_ends_refl _ _)
  | gone observed cardId seen => exact .inl ⟨observed, cardId, seen, rfl, ends_finalizeGone h⟩
  | adopting a seen =>
      simp only [Task.next] at h
      split at h
      · exact absurd h (not_ends_refl _ _)
      · rw [insertReconciled_db] at h
        exact absurd h (not_ends_refl _ _)
  | adopted runId cardId seen => exact absurd h (not_ends_signalSeen hinv run runId cardId seen)
  | event seen => exact absurd h (not_ends_refl _ _)
  | routed runId entry seen =>
      simp only [Task.next] at h
      split at h <;> exact absurd h (not_ends_refl _ _)
  | carded runId cardId seen =>
      simp only [Task.next] at h
      split at h
      · rw [armIdle_db] at h
        exact absurd h (not_ends_refl _ _)
      · exact absurd h (not_ends_refl _ _)
      · exact absurd h (not_ends_refl _ _)
      · rw [setIdle_db] at h
        exact absurd h (not_ends_refl _ _)
  | cleared runId cardId seen => exact absurd h (not_ends_signalSeen hinv run runId cardId seen)
  | closing runId entry seen =>
      cases ends_finalizeGone h
      exact .inr ⟨entry, seen, rfl⟩

/-! ## Other outcomes -/

/-- Whatever `reconcile_once` asks about the run, it learns nothing. -/
inductive ProbeFails (defaultSocket : String) (herdr : Herdr) (run : Run) : Prop
  | unresolved (h : resolveTarget defaultSocket herdr run.session = .unresolved)
  | noPane (h : run.herdrPaneId = none)
  | panic (h : herdr.panics = true)
  | noAnswer (socket : String) (e : HerdrError)
      (h : (resolveTarget defaultSocket herdr run.session).socket = some socket)
      (h' : herdr.snapshot socket = .error e)

theorem probeRun_fails {herdr : Herdr} {run : Run} (h : ProbeFails defaultSocket herdr run) :
    probeRun defaultSocket herdr run = .unknown := by
  unfold probeRun
  split
  · rfl
  · rfl
  · next paneId hpane htarget =>
      split
      · rfl
      · next hpanics =>
          cases h with
          | unresolved h => exact absurd h htarget
          | noPane h => exact absurd (h.symm.trans hpane) (by simp)
          | panic h => exact absurd h hpanics
          | noAnswer socket e h h' => simp [runtimeSnapshot, h, h', Except.mapError]

/-- The store changed by the signal of the status, if at all. -/
inductive Signalled (env : Env) (status : AgentStatus) (d : DaemonState) (db : Db) : Prop
  | unchanged (h : db = d.db)
  | signal (runId cardId : Int) (signal : AgentSignal) (hsignal : status.signal = some signal)
      (h : db = (applySignal env runId cardId signal d).db)

theorem signalled_signalSeen {seen : Sighting} {status : AgentStatus}
    (hstatus : seen.status = some status) (runId cardId : Int) (d : DaemonState) :
    Signalled env status d (signalSeen env runId cardId seen d).db := by
  unfold signalSeen
  rw [hstatus]
  cases hsignal : status.signal with
  | none =>
      simp only [Option.bind_some, hsignal]
      exact .unchanged rfl
  | some signal =>
      simp only [Option.bind_some, hsignal]
      exact .signal runId cardId signal hsignal rfl

/-- A task whose pane is there changes the store by the signal of its status, if at all. -/
theorem task_alive {t : Task} {seen : Sighting} {status : AgentStatus}
    (hfits : Fits defaultSocket d.db t)
    (ht : sightingOf t = some seen) (hstatus : seen.status = some status) :
    Signalled env status d (t.next cfg defaultSocket env d).1.db := by
  cases t with
  | probing run cardId => cases ht
  | observed run cardId herdr => cases ht
  | gone run cardId seen' =>
      cases ht
      exact absurd (hfits.2.2.1.symm.trans hstatus) (by simp)
  | adopting a seen' =>
      refine .unchanged ?_
      simp only [Task.next]
      split
      · rfl
      · exact insertReconciled_db _ _ d
  | adopted runId cardId seen' =>
      cases ht
      exact signalled_signalSeen hstatus runId cardId d
  | event seen' => exact .unchanged rfl
  | routed runId entry seen' =>
      refine .unchanged ?_
      simp only [Task.next]
      split <;> rfl
  | carded runId cardId seen' =>
      refine .unchanged ?_
      simp only [Task.next]
      split
      · exact armIdle_db runId
      · rfl
      · rfl
      · exact setIdle_db runId none
  | cleared runId cardId seen' =>
      cases ht
      exact signalled_signalSeen hstatus runId cardId d
  | closing runId entry seen' =>
      cases ht
      exact absurd (hfits.2.2.1.1.symm.trans hstatus) (by simp)

/-- A task whose pane is gone ends a run, or leaves the store alone. -/
theorem task_gone {t : Task} {seen : Sighting} (ht : sightingOf t = some seen)
    (hstatus : seen.status = none) :
    (t.next cfg defaultSocket env d).1.db = d.db ∨
    ∃ run, Ends run d.db (t.next cfg defaultSocket env d).1.db := by
  cases t with
  | probing run cardId => cases ht
  | observed run cardId herdr => cases ht
  | gone run cardId seen' => exact finalizeGone_cases run.id _ d
  | adopting a seen' =>
      left
      simp only [Task.next]
      split
      · rfl
      · exact insertReconciled_db _ _ d
  | adopted runId cardId seen' =>
      cases ht
      left
      simp [Task.next, signalSeen, hstatus]
  | event seen' => exact .inl rfl
  | routed runId entry seen' =>
      left
      simp only [Task.next]
      split <;> rfl
  | carded runId cardId seen' =>
      cases ht
      left
      simp [Task.next, hstatus]
  | cleared runId cardId seen' =>
      cases ht
      left
      simp [Task.next, signalSeen, hstatus]
  | closing runId entry seen' => exact finalizeGone_cases runId _ d

/-- A task that has seen nothing yet changes nothing. -/
theorem task_unseen {t : Task} (ht : sightingOf t = none) :
    (t.next cfg defaultSocket env d).1 = d := by
  cases t with
  | probing run cardId => rfl
  | observed run cardId herdr =>
      simp only [Task.next]
      split <;> rfl
  | _ => cases ht

/-! ## Reconciliations -/

theorem foundGone_of_fits {t : Task} {seen : Sighting} {run : Run} (hinv : Inv (life d.db.toTables))
    (hfits : Fits defaultSocket d.db t) (ht : sightingOf t = some seen)
    (hsnapshot : seen.snapshot.isSome)
    (hends : Ends run d.db (t.next cfg defaultSocket env d).1.db) :
    FoundGone defaultSocket t run := by
  obtain ⟨herdr, hherdr⟩ := Option.isSome_iff_exists.mp hsnapshot
  rcases ends_of_task hinv hends with ⟨observed, cardId, seen', rfl, hid⟩ | ⟨entry, seen', rfl⟩
  · cases ht
    obtain ⟨hanswered, hstays, hstatus, hpane, herdr', hherdr', hsocket⟩ := hfits
    cases hherdr.symm.trans hherdr'
    have hsame := hstays run hends.1 hid
    rw [← hsame.session] at hsocket
    exact .supervisor hid hsame.session hsame.pane (hsame.pane.trans hpane) hherdr hsocket
      (omits_of_answered hanswered hherdr hstatus)
  · cases ht
    obtain ⟨hanswered, hpane, ⟨hstatus, hnames⟩, hstarted⟩ := hfits
    have hrunPane := hpane run hends.1 rfl (hstarted run hends.1 rfl)
    exact .watcher hrunPane (hrunPane.trans hnames.pane) hherdr hnames.socket
      (omits_of_answered hanswered hherdr hstatus)

theorem world_advance {i : Nat} {p : Pending} (hp : s.pending[i]? = some p) :
    (s.next cfg defaultSocket (.advance i env)).world =
      { s.world with daemon := (p.task.next cfg defaultSocket env s.world.daemon).1 } := by
  simp only [Reconciling.next, Reconciling.tick, Reconciling.advance, hp]

/-- A reconciliation ends a run only after its session's socket answered with a snapshot that does
not list its pane, while it is open, in the same session and on the same pane. A question that fails
changes nothing, and a pane that is there changes the store by the signal of its status only. -/
theorem reconciliation_ends_only_gone
    (h : (reconciling cfg defaultSocket).ReachableBy (FreshId cfg defaultSocket) s) :
    (∀ socket watched herdr e, herdr.snapshot socket = .error e →
      s.next cfg defaultSocket (.snapshot socket watched herdr) = s.tick) ∧
    ∀ i p env, s.pending[i]? = some p →
      (sightingOf p.task = none → (s.next cfg defaultSocket (.advance i env)).world = s.world) ∧
      (∀ run cardId herdr, p.task = .observed run cardId herdr →
        ProbeFails defaultSocket herdr run →
        (s.next cfg defaultSocket (.advance i env)).pending = s.pending.eraseIdx i) ∧
      ∀ seen, sightingOf p.task = some seen → seen.snapshot.isSome →
        (∀ run, Ends run s.world.daemon.db
          (s.next cfg defaultSocket (.advance i env)).world.daemon.db →
          FoundGone defaultSocket p.task run) ∧
        (seen.status = none →
          (s.next cfg defaultSocket (.advance i env)).world.daemon.db = s.world.daemon.db ∨
          ∃ run, Ends run s.world.daemon.db
            (s.next cfg defaultSocket (.advance i env)).world.daemon.db) ∧
        ∀ status, seen.status = some status →
          (∀ run, ¬Ends run s.world.daemon.db
            (s.next cfg defaultSocket (.advance i env)).world.daemon.db) ∧
          Signalled env status s.world.daemon
            (s.next cfg defaultSocket (.advance i env)).world.daemon.db := by
  have hsound := sound_of_reachable h
  refine ⟨fun socket watched herdr e hfails => ?_, fun i p env hp => ?_⟩
  · simp [Reconciling.next, reconcileSocket, hfails]
  have hfits := hsound.tasks p (List.mem_of_getElem? hp)
  rw [world_advance hp]
  refine ⟨fun ht => ?_, fun run cardId herdr ht hfails => ?_, fun seen ht hsnapshot => ⟨?_, ?_, ?_⟩⟩
  · rw [task_unseen ht]
  · have hnext : p.task.next cfg defaultSocket env s.world.daemon = (s.world.daemon, none) := by
      simp [ht, Task.next, probeRun_fails hfails]
    simp [Reconciling.next, Reconciling.tick, Reconciling.advance, hp, hnext]
  · intro run hends
    exact foundGone_of_fits hsound.inv hfits ht hsnapshot hends
  · intro hstatus
    exact task_gone ht hstatus
  · intro status hstatus
    refine ⟨fun run hends => ?_, task_alive hfits ht hstatus⟩
    rcases ends_of_task hsound.inv hends with ⟨_, _, _, heq, -⟩ | ⟨_, _, heq⟩
    · rw [heq] at ht hfits
      cases ht
      exact absurd (hfits.2.2.1.symm.trans hstatus) (by simp)
    · rw [heq] at ht hfits
      cases ht
      exact absurd (hfits.2.2.1.1.symm.trans hstatus) (by simp)

/-! ## Histories -/

theorem reachableBy_next {ok : Reconciling → ReconcileLabel → Prop} {l : ReconcileLabel}
    (h : (reconciling cfg defaultSocket).ReachableBy ok s) (hok : ok s l) :
    (reconciling cfg defaultSocket).ReachableBy ok (s.next cfg defaultSocket l) := h.step hok rfl

theorem freshId_idle (hidle : s.pending = []) (l : ReconcileLabel) :
    FreshId cfg defaultSocket s l := by
  intro p hp
  simp [hidle] at hp

theorem freshId_of_world {l : ReconcileLabel} (hother : ∀ l', l ≠ .other l')
    (hworld : (s.next cfg defaultSocket l).world = s.world) : FreshId cfg defaultSocket s l := by
  intro p hp k hk
  refine ⟨?_, fun l' hl => absurd hl (hother l')⟩
  rw [hworld]
  exact onlyOld_refl k s.world.daemon.db

theorem world_readActive : (s.next cfg defaultSocket .readActive).world = s.world := rfl

theorem world_probe (i : Nat) (herdr : Herdr) :
    (s.next cfg defaultSocket (.probe i herdr)).world = s.world := by
  simp only [Reconciling.next, Reconciling.tick]
  split <;> rfl

theorem freshId_unseen {i : Nat}
    (h : s.pending[i]?.all (fun p => (sightingOf p.task).isNone) = true) :
    FreshId cfg defaultSocket s (.advance i env) := by
  refine freshId_of_world (by simp) ?_
  cases hp : s.pending[i]? with
  | none => simp [Reconciling.next, Reconciling.tick, Reconciling.advance, hp]
  | some p =>
      simp only [hp, Option.all_some, Option.isNone_iff_eq_none] at h
      rw [world_advance hp, task_unseen h]

/-- Everything else may run as long as it is `ok` beside what is in flight. -/
theorem reachableBy_others {ok : Reconciling → ReconcileLabel → Prop}
    (h : (reconciling cfg defaultSocket).ReachableBy ok s)
    (ls : List Label) (hrestart : ∀ l ∈ ls, l ≠ .restart)
    (hok : ∀ l ∈ ls, ∀ s' : Reconciling, s'.pending = s.pending → ok s' (.other l)) :
    (reconciling cfg defaultSocket).ReachableBy ok (s.run cfg defaultSocket (ls.map .other)) := by
  induction ls generalizing s with
  | nil => exact h
  | cons l ls ih =>
      have hpending : (s.next cfg defaultSocket (.other l)).pending = s.pending := by
        cases l with
        | restart => exact absurd rfl (hrestart .restart (by simp))
        | _ => rfl
      refine ih (reachableBy_next h (hok l (by simp) s rfl))
        (fun l' hl' => hrestart l' (by simp [hl'])) fun l' hl' s' hs' => ?_
      exact hok l' (by simp [hl']) s' (hs'.trans hpending)

def onPane (paneId : String) : RuntimeHandle :=
  { paneId := some paneId, workspaceId := none, anchorPaneId := none,
    pid := none, herdrSocket := none, capturedSessionId := none }

/-- A session that answers with these panes. -/
def answering (panes : List PaneStatus) : Herdr where
  resolve _ := none
  connectChecked _ := .ok ()
  sessionSnapshot _ := .ok { panes, agents := [] }
  panics := false

/-- Claim the oldest queued run and register it on a pane. -/
def launchOn (paneId : String) (s : Reconciling) : List Label :=
  let claim := [Label.dispatch permissiveEnv .readActive, .dispatch permissiveEnv .claim]
  match (s.run oneAtATime "/herdr.sock" (claim.map .other)).world.launching with
  | [] => claim
  | claimed :: _ =>
      match s.world.daemon.db.column? claimed.2.columnId with
      | none => claim
      | some column =>
          claim ++ [.dispatch permissiveEnv (.registered claimed column (onPane paneId))]

theorem mem_launchOn {paneId : String} {l : Label} (h : l ∈ launchOn paneId s) :
    ∃ x, l = .dispatch permissiveEnv x ∧
      ∀ claimed column handle, x = .registered claimed column handle →
      handle = onPane paneId := by
  dsimp only [launchOn] at h
  split at h
  · rcases List.mem_pair.mp h with rfl | rfl <;> exact ⟨_, rfl, by simp⟩
  · split at h
    · rcases List.mem_pair.mp h with rfl | rfl <;> exact ⟨_, rfl, by simp⟩
    · simp only [List.cons_append, List.nil_append, List.mem_cons, List.not_mem_nil, or_false] at h
      rcases h with rfl | rfl | rfl
      · exact ⟨_, rfl, by simp⟩
      · exact ⟨_, rfl, by simp⟩
      · refine ⟨_, rfl, fun claimed column handle heq => ?_⟩
        cases heq
        rfl

theorem launchOn_ne_restart {paneId : String} : ∀ l ∈ launchOn paneId s, l ≠ .restart := by
  intro l hl
  obtain ⟨x, rfl, -⟩ := mem_launchOn hl
  simp

/-- A card is queued. -/
def cardQueued : Reconciling :=
  (Reconciling.start Db.fresh).run oneAtATime "/herdr.sock" (queueOneCard.map .other)

/-- Its run is started on a pane. -/
def runOnPane : Reconciling :=
  cardQueued.run oneAtATime "/herdr.sock" ((launchOn "p1" cardQueued).map .other)

/-- Its session answers without the pane. -/
def paneGone : Reconciling :=
  runOnPane.run oneAtATime "/herdr.sock"
    [.readActive, .probe 0 (answering []), .advance 0 permissiveEnv]

theorem reachableBy_runOnPane :
    (reconciling oneAtATime "/herdr.sock").ReachableBy (FreshId oneAtATime "/herdr.sock")
      runOnPane := by
  have hqueued : (reconciling oneAtATime "/herdr.sock").ReachableBy
      (FreshId oneAtATime "/herdr.sock") cardQueued :=
    reachableBy_others (.init rfl) queueOneCard (by simp [queueOneCard]) fun l _ s' hs' =>
      freshId_idle hs' _
  have hidle : cardQueued.pending = [] := by decide +kernel
  exact reachableBy_others hqueued (launchOn "p1" cardQueued) launchOn_ne_restart fun l _ s' hs' =>
    freshId_idle (hs'.trans hidle) _

theorem reachableBy_paneGone :
    (reconciling oneAtATime "/herdr.sock").ReachableBy (FreshId oneAtATime "/herdr.sock")
      paneGone := by
  simp only [paneGone, Reconciling.run]
  refine reachableBy_next (reachableBy_next (reachableBy_next reachableBy_runOnPane ?_) ?_) ?_
  · exact freshId_of_world (by simp) world_readActive
  · exact freshId_of_world (by simp) (world_probe 0 (answering []))
  · exact freshId_unseen (by decide +kernel)

theorem pane_gone_ends_run : ∃ p run, paneGone.pending[0]? = some p ∧
    Ends run paneGone.world.daemon.db
      (paneGone.next oneAtATime "/herdr.sock" (.advance 0 permissiveEnv)).world.daemon.db ∧
    FoundGone "/herdr.sock" p.task run := by
  have hfacts : paneGone.pending[0]?.map
      (fun p => (sightingOf p.task).map fun seen => seen.snapshot.isSome) =
        some (some true) ∧
      (paneGone.world.daemon.db.run? 1).map Run.endedAt = some none ∧
      ((paneGone.next oneAtATime "/herdr.sock" (.advance 0 permissiveEnv)).world.daemon.db.run?
        1).map (fun r => r.endedAt.isSome) = some true := by decide +kernel
  obtain ⟨htask, hopen, hended⟩ := hfacts
  obtain ⟨p, hp, htask⟩ := Option.map_eq_some_iff.mp htask
  obtain ⟨seen, hseen, hsnapshot⟩ := Option.map_eq_some_iff.mp htask
  obtain ⟨run, hrun, hopen⟩ := Option.map_eq_some_iff.mp hopen
  obtain ⟨run', hrun', hended⟩ := Option.map_eq_some_iff.mp hended
  have hid : run'.id = run.id := (Table.key_of_find? hrun').trans (Table.key_of_find? hrun).symm
  have hends : Ends run paneGone.world.daemon.db
      (paneGone.next oneAtATime "/herdr.sock" (.advance 0 permissiveEnv)).world.daemon.db :=
    ⟨Table.mem_of_find? hrun, hopen, run', Table.mem_of_find? hrun', hid,
      Option.isSome_iff_ne_none.mp hended⟩
  have hgone := (reconciliation_ends_only_gone reachableBy_paneGone).2 0 p permissiveEnv hp
  exact ⟨p, run, hp, hends, (hgone.2.2 seen hseen hsnapshot).1 run hends⟩

/-- The session answers that the agent on the pane is done. -/
def paneDone : Reconciling :=
  runOnPane.run oneAtATime "/herdr.sock"
    [ .snapshot "/herdr.sock" ["p1"] (answering [{ paneId := "p1", agentStatus := .done }]),
      .advance 0 permissiveEnv, .advance 0 permissiveEnv, .advance 0 permissiveEnv ]

/-- The run on the pane that is gone ends, its card is deleted, and the next run gets its id on
another pane. -/
def idReused : Reconciling :=
  let s := paneGone.run oneAtATime "/herdr.sock"
    [ .other (.watch permissiveEnv (.finalizeRun 1 .ok none none false false)),
      .other (.request permissiveEnv (.cardDelete 1)),
      .other (.request permissiveEnv
        (.cardCreate { title := "Next", spaceRef := some "w1", columnId := some 2 })) ]
  s.run oneAtATime "/herdr.sock" ((launchOn "p2" s).map .other)

/-- A snapshot that lists the pane pauses the timeout of the run and lets its card await; one that
does not list it ends the run on another pane that took the id. -/
theorem reconciliation_changes_live_run :
    ((reconciling oneAtATime "/herdr.sock").Reachable paneDone ∧
      (paneDone.world.daemon.db.card? 1).map Card.status = some .running ∧
      (paneDone.world.daemon.db.run? 1).map Run.timeoutPausedAtMs = some none ∧
      ((paneDone.next oneAtATime "/herdr.sock" (.advance 0 permissiveEnv)).world.daemon.db.card?
        1).map Card.status = some .awaiting ∧
      ((paneDone.next oneAtATime "/herdr.sock" (.advance 0 permissiveEnv)).world.daemon.db.run?
        1).map Run.timeoutPausedAtMs = some (some 0)) ∧
    (reconciling oneAtATime "/herdr.sock").Reachable idReused ∧
      idReused.pending.map (fun p => (sightingOf p.task).map Sighting.paneId) = [some "p1"] ∧
      (idReused.world.daemon.db.run? 1).map (fun r => (r.herdrPaneId, r.endedAt)) =
        some (some "p2", none) ∧
      ((idReused.next oneAtATime "/herdr.sock" (.advance 0 permissiveEnv)).world.daemon.db.run?
        1).map (fun r => (r.herdrPaneId, r.endedAt.isSome)) = some (some "p2", true) := by
  have hpane : (reconciling oneAtATime "/herdr.sock").Reachable runOnPane :=
    reconciling_reachable_run (reconciling_reachable_run (.init rfl) _) _
  refine ⟨⟨reconciling_reachable_run hpane _, by decide +kernel⟩, ?_, by decide +kernel⟩
  have hgone := reconciling_reachable_run hpane
    [.readActive, .probe 0 (answering []), .advance 0 permissiveEnv]
  exact reconciling_reachable_run (reconciling_reachable_run hgone _) _

end HerdrBoard.Reconcile
