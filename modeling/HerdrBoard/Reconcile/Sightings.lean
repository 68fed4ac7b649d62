import HerdrBoard.Reconcile.Watched

/-!
# What reconciliations do

A reconciliation ends a run only after its session answered with a snapshot that does not
list its pane. -/

open Lib HerdrBoard.Core HerdrBoard.Daemon HerdrBoard.Lifecycle

namespace HerdrBoard.Reconcile

variable {cfg : Config} {env : Env} {defaultSocket : String} {E : Event → Prop} {db db' : Db}
  {d d' : DaemonState} {r r' : Run}

/-! ## Runs that start -/

/-- The started runs were started before, except those in `K`. -/
def StartsOnly (K : Int → Prop) (db db' : Db) : Prop :=
  ∀ r' ∈ db'.runs, r'.startedAt.isSome → K r'.id ∨ ∃ r ∈ db.runs, r.id = r'.id ∧ r.startedAt.isSome

theorem startsOnly_of_via {K : Int → Prop} (h : Via E db db') (hE : ∀ k a, E (.promote k a) → K k) :
    StartsOnly K db db' := by
  refine Lib.System.Steps.preserves (I := fun l => ∀ r' ∈ l.runs, r'.startedAt.isSome →
    K r'.id ∨ ∃ r ∈ db.runs,
    r.id = r'.id ∧ r.startedAt.isSome) ?_ h fun r' hr' hstarted => .inr ⟨r', hr', rfl, hstarted⟩
  intro l e l' hold he hstep r' hr' hstarted
  have hstep : Step l e l' := hstep
  rcases hstep.run_back hr' with ⟨r, hr, hev⟩ | hins
  · cases hev with
    | same => exact hold r' hr hstarted
    | promote _ a hqueued => exact .inl (hE r.id a he)
    | signal => exact hold r hr hstarted
    | finish => exact hold r hr hstarted
    | hop => exact hold r hr hstarted
  · cases hins <;> cases hstarted

/-- Started runs stay who they are, and only runs in `K` start. -/
structure RunsKept (K : Int → Prop) (db db' : Db) : Prop where
  same : ∀ r ∈ db.runs, r.startedAt.isSome → ∀ r' ∈ db'.runs, r'.id = r.id → SameRun r r'
  starts : StartsOnly K db db'

theorem runsKept_of_via {K : Int → Prop} (h : Via E db db') (hE : DeletesOrKeeps E)
    (hK : ∀ k a, E (.promote k a) → K k) : RunsKept K db db' :=
  ⟨fun _ hr hstarted _ hr' hid => sameRun_of_via h hE hr hstarted hr' hid, startsOnly_of_via h hK⟩

theorem runsKept_refl (K : Int → Prop) (db : Db) : RunsKept K db db where
  same r hr hstarted r' hr' hid := by
    rw [Table.eq_of_key_eq hr' hr hid]
    exact .refl hstarted
  starts r' hr' hstarted := .inr ⟨r', hr', rfl, hstarted⟩

/-! ## Tasks -/

/-- The run a task is about. -/
def runOf : Task → Option Int
  | .probing run _ | .observed run _ _ | .gone run _ _ => some run.id
  | .adopting a _ => some a.run.id
  | .event _ => none
  | .adopted runId _ _ | .routed runId _ _ | .carded runId _ _ | .cleared runId _ _
  | .closing runId _ _ => some runId

/-- What was seen that the task applies. -/
def sightingOf : Task → Option Sighting
  | .probing _ _ | .observed _ _ _ => none
  | .gone _ _ seen | .adopting _ seen | .adopted _ _ seen | .event seen | .routed _ _ seen
    | .carded _ _ seen | .cleared _ _ seen | .closing _ _ seen => some seen

/-- A sighting of a snapshot is what a session answered. -/
def Answered (seen : Sighting) : Prop :=
  ∀ herdr, seen.snapshot = some herdr → ∃ snapshot, herdr.connectChecked seen.socket = .ok () ∧
    herdr.sessionSnapshot seen.socket = .ok snapshot ∧
    snapshotPaneStatuses snapshot seen.paneId = seen.status

/-- Whatever is stored under the id of the run is the run. -/
def Stays (db : Db) (run : Run) : Prop := ∀ r ∈ db.runs, r.id = run.id → SameRun run r

/-- Once it is started, the run is on the pane of its watch entry. -/
def OnPane (db : Db) (runId : Int) (entry : ActiveRun) : Prop :=
  ∀ r ∈ db.runs, r.id = runId → r.startedAt.isSome → r.herdrPaneId = entry.paneId

/-- The entry names the pane and the socket that were seen. -/
structure Names (defaultSocket : String) (entry : ActiveRun) (seen : Sighting) : Prop where
  pane : entry.paneId = some seen.paneId
  socket : effectiveHerdrSocket defaultSocket entry.handle.herdrSocket = seen.socket

/-- What a task remembers still fits the store. -/
def Fits (defaultSocket : String) (db : Db) : Task → Prop
  | .probing _ _ | .observed _ _ _ => True
  | .gone run _ seen =>
      Answered seen ∧ Stays db run ∧ seen.status = none ∧ run.herdrPaneId = some seen.paneId ∧
      ∃ herdr, seen.snapshot = some herdr ∧
        (resolveTarget defaultSocket herdr run.session).socket = some seen.socket
  | .adopting a seen => Answered seen ∧ Stays db a.run
  | .adopted _ _ seen | .event seen | .carded _ _ seen | .cleared _ _ seen => Answered seen
  | .routed runId entry seen =>
      Answered seen ∧ OnPane db runId entry ∧ Names defaultSocket entry seen
  | .closing runId entry seen => Answered seen ∧ OnPane db runId entry ∧ (seen.status = none ∧
      Names defaultSocket entry seen) ∧ ∀ r ∈ db.runs, r.id = runId → r.startedAt.isSome

/-- The runs stored under the id were stored before. -/
def OnlyOld (k : Int) (db db' : Db) : Prop := ∀ r' ∈ db'.runs, r'.id = k → ∃ r ∈ db.runs, r.id = k

theorem onlyOld_refl (k : Int) (db : Db) : OnlyOld k db db := fun r' hr' hid => ⟨r', hr', hid⟩

theorem Stays.next {K : Int → Prop} {run : Run} (h : Stays db run) (hkept : RunsKept K db db')
    (hold : OnlyOld run.id db db') : Stays db' run := by
  intro r' hr' hid
  obtain ⟨r, hr, hrid⟩ := hold r' hr' hid
  have hsame := h r hr hrid
  exact hsame.trans (hkept.same r hr hsame.started r' hr' (hid.trans hrid.symm))

theorem OnPane.next {K : Int → Prop} {runId : Int} {entry entry' : ActiveRun}
    (h : OnPane db runId entry)
    (hkept : RunsKept K db db') (hK : ¬K runId) (hpane : entry'.paneId = entry.paneId) :
    OnPane db' runId entry' := by
  intro r' hr' hid hstarted
  rcases hkept.starts r' hr' hstarted with hstart | ⟨r, hr, hrid, hrs⟩
  · exact absurd (hid ▸ hstart) hK
  · rw [(hkept.same r hr hrs r' hr' hrid.symm).pane, h r hr (hrid.trans hid) hrs, hpane]

theorem fits_next {K : Int → Prop} {t : Task} (h : Fits defaultSocket db t)
    (hkept : RunsKept K db db')
    (hK : ∀ k, runOf t = some k → ¬K k) (hold : ∀ k, runOf t = some k → OnlyOld k db db') :
    Fits defaultSocket db' t := by
  cases t with
  | probing run cardId => trivial
  | observed run cardId herdr => trivial
  | gone run cardId seen => exact ⟨h.1, h.2.1.next hkept (hold _ rfl), h.2.2⟩
  | adopting a seen => exact ⟨h.1, h.2.next hkept (hold _ rfl)⟩
  | adopted runId cardId seen => exact h
  | event seen => exact h
  | routed runId entry seen => exact ⟨h.1, h.2.1.next hkept (hK _ rfl) rfl, h.2.2⟩
  | carded runId cardId seen => exact h
  | cleared runId cardId seen => exact h
  | closing runId entry seen =>
      refine ⟨h.1, h.2.1.next hkept (hK _ rfl) rfl, h.2.2.1, fun r' hr' hid => ?_⟩
      obtain ⟨r, hr, hrid⟩ := hold runId rfl r' hr' hid
      exact (hkept.same r hr (h.2.2.2 r hr hrid) r' hr' (hid.trans hrid.symm)).started

/-! ## One lock scope of a task -/

theorem sameOpenRun_some {observed current : Run} {cardId : Int}
    (h : sameOpenRun db observed cardId = some current) :
    current ∈ db.runs ∧ SameRun observed current ∧ current.endedAt = none := by
  unfold sameOpenRun at h
  cases hrun : db.run? observed.id with
  | none => simp [hrun] at h
  | some run =>
      cases hcard : db.card? cardId with
      | none => simp [hrun, hcard] at h
      | some card =>
          simp only [hrun, hcard, Option.ite_none_right_eq_some, Option.some.injEq] at h
          obtain ⟨⟨hstarted, hopen, hcardId, -, hsession, hpane⟩, rfl⟩ := h
          exact ⟨Table.mem_of_find? hrun,
            ⟨Table.key_of_find? hrun, hcardId, hsession, hpane, hstarted⟩,
            by simpa using hopen⟩

theorem stays_of_sameOpenRun {observed current : Run} {cardId : Int}
    (h : sameOpenRun db observed cardId = some current) : Stays db observed ∧ Stays db current := by
  obtain ⟨hmem, hsame, -⟩ := sameOpenRun_some h
  constructor
  · intro r hr hid
    rwa [Table.eq_of_key_eq hr hmem (hid.trans hsame.id.symm)]
  · intro r hr hid
    rw [Table.eq_of_key_eq hr hmem hid]
    exact .refl hsame.started

theorem herdr_snapshot_ok {herdr : Herdr} {socket : String} {panes : String → Option AgentStatus}
    (h : herdr.snapshot socket = .ok panes) : ∃ snapshot, herdr.connectChecked socket = .ok () ∧
      herdr.sessionSnapshot socket = .ok snapshot ∧ panes = snapshotPaneStatuses snapshot := by
  unfold Herdr.snapshot at h
  cases hconnect : herdr.connectChecked socket with
  | error e =>
      rw [hconnect] at h
      cases h
  | ok u =>
      rw [hconnect] at h
      cases hsnapshot : herdr.sessionSnapshot socket with
      | error e =>
          rw [hsnapshot] at h
          cases h
      | ok snapshot =>
          rw [hsnapshot] at h
          cases h
          exact ⟨snapshot, rfl, rfl, rfl⟩

theorem runtimeSnapshot_ok {herdr : Herdr} {target : SessionTarget}
    {panes : String → Option AgentStatus} (h : runtimeSnapshot herdr target = .ok panes) :
    ∃ socket snapshot, target.socket = some socket ∧
      herdr.connectChecked socket = .ok () ∧ herdr.sessionSnapshot socket = .ok snapshot ∧
      panes = snapshotPaneStatuses snapshot := by
  unfold runtimeSnapshot at h
  cases hsocket : target.socket with
  | none => simp [hsocket] at h
  | some socket =>
      simp only [hsocket] at h
      cases hanswer : herdr.snapshot socket with
      | error e =>
          rw [hanswer] at h
          cases h
      | ok panes' =>
          rw [hanswer] at h
          cases h
          obtain ⟨snapshot, hconnect, hsession, hpanes⟩ := herdr_snapshot_ok hanswer
          exact ⟨socket, snapshot, rfl, hconnect, hsession, hpanes⟩

/-- What a snapshot says of a pane, as a probe. -/
def probeOf : Option AgentStatus → RuntimeProbe
  | some status => .alive status
  | none => .gone

theorem probeOf_ne_unknown (status : Option AgentStatus) : probeOf status ≠ .unknown := by
  cases status <;> simp [probeOf]

theorem probeOf_inj {status status' : Option AgentStatus} (h : probeOf status = probeOf status') :
    status = status' := by
  cases status <;> cases status' <;> simp_all [probeOf]

/-- What a probe that is not unknown says: the session's socket, the run's pane, and the snapshot
that answered. -/
theorem probeRun_seen {herdr : Herdr} {run : Run} {status : Option AgentStatus}
    (h : probeRun defaultSocket herdr run = probeOf status) :
    ∃ socket paneId snapshot, (resolveTarget defaultSocket herdr run.session).socket = some socket ∧
      run.herdrPaneId = some paneId ∧ herdr.connectChecked socket = .ok () ∧
      herdr.sessionSnapshot socket = .ok snapshot ∧
      snapshotPaneStatuses snapshot paneId = status := by
  unfold probeRun at h
  split at h
  · exact absurd h.symm (probeOf_ne_unknown status)
  · exact absurd h.symm (probeOf_ne_unknown status)
  · next paneId hpane _ =>
      split at h
      · exact absurd h.symm (probeOf_ne_unknown status)
      · cases hanswer : runtimeSnapshot herdr (resolveTarget defaultSocket herdr run.session) with
        | error e =>
            rw [hanswer] at h
            exact absurd h.symm (probeOf_ne_unknown status)
        | ok panes =>
            rw [hanswer] at h
            obtain ⟨socket, snapshot, hsocket, hconnect, hsession, rfl⟩ :=
              runtimeSnapshot_ok hanswer
            exact ⟨socket, paneId, snapshot, hsocket, hpane, hconnect, hsession, probeOf_inj h⟩

/-- The daemon after a lock scope of a task: as it was, after a step of the watchers, or with an
adopted run. -/
inductive TaskServes (cfg : Config) (env : Env) (d : DaemonState) : Task → DaemonState → Prop
  | nothing (t : Task) : TaskServes cfg env d t d
  | watch (t : Task) (x : Watch) : TaskServes cfg env d t (serveWatch cfg env d x)
  | insert (a : Adoption) (seen : Sighting) (hnew : d.sched.active.lookup a.run.id = none) :
      TaskServes cfg env d (.adopting a seen) (insertReconciled a.run.id (a.entry env) d)

theorem serves_signalSeen (t : Task) (runId cardId : Int) (seen : Sighting) :
    TaskServes cfg env d t (signalSeen env runId cardId seen d) := by
  unfold signalSeen
  split
  · next signal _ => exact .watch t (.signal runId cardId signal)
  · exact .nothing t

theorem task_serves (t : Task) (d : DaemonState) :
    TaskServes cfg env d t (t.next cfg defaultSocket env d).1 := by
  cases t with
  | probing run cardId => exact .nothing _
  | observed run cardId herdr =>
      simp only [Task.next]
      split <;> exact .nothing _
  | gone run cardId seen => exact .watch _ (.finalizeRun run.id .fail _ _ false false)
  | adopting a seen =>
      simp only [Task.next]
      split
      · exact .nothing _
      · next hnew => exact .insert a seen (Option.not_isSome_iff_eq_none.mp hnew)
  | adopted runId cardId seen => exact serves_signalSeen _ runId cardId seen
  | event seen => exact .nothing _
  | routed runId entry seen =>
      simp only [Task.next]
      split <;> exact .nothing _
  | carded runId cardId seen =>
      simp only [Task.next]
      split
      · exact .watch _ (.armIdle runId)
      · exact .nothing _
      · exact .nothing _
      · exact .watch _ (.clearIdle runId)
  | cleared runId cardId seen => exact serves_signalSeen _ runId cardId seen
  | closing runId entry seen => exact .watch _ (.finalizeRun runId .fail _ _ false false)

theorem routeByPane_some {seen : Sighting} {t : Task}
    (h : routeByPane defaultSocket d seen = some t) :
    ∃ runId entry, t = .routed runId entry seen ∧ d.sched.active.lookup runId = some entry ∧
      Names defaultSocket entry seen := by
  obtain ⟨runId, hfound, h⟩ := Option.bind_eq_some_iff.mp h
  obtain ⟨entry, hentry, rfl⟩ := Option.map_eq_some_iff.mp h
  obtain ⟨e, he, rfl⟩ := Option.map_eq_some_iff.mp hfound
  have hmatch := List.find?_some he
  simp only [Bool.and_eq_true, beq_iff_eq] at hmatch
  have hlookup : d.sched.active.lookup e.1 = some e.2 :=
    AList.mem_lookup_iff.mpr (List.mem_of_find?_eq_some he)
  cases hentry.symm.trans hlookup
  exact ⟨e.1, e.2, rfl, hentry, hmatch.1, hmatch.2⟩

theorem started_of_runOpen {runId : Int} (h : runOpen d runId = true) :
    ∀ r ∈ d.db.runs, r.id = runId → r.startedAt.isSome := by
  intro r hr hid
  unfold runOpen at h
  cases hrun : d.db.run? runId with
  | none => simp [hrun] at h
  | some run =>
      simp only [hrun, Option.any_some, Run.isActive, Bool.and_eq_true] at h
      rw [Table.eq_of_key_eq hr (Table.mem_of_find? hrun)
        (hid.trans (Table.key_of_find? hrun).symm)]
      exact h.1

/-- After a lock scope a task is about the run it was about, or an event was routed to a
watched run. -/
theorem followUp_about {t t' : Task} (hnext : (t.next cfg defaultSocket env d).2 = some t') :
    (runOf t' = runOf t ∧ ∀ seen, t' ≠ .event seen) ∨
      ∃ seen runId entry, t = .event seen ∧ t' = .routed runId entry seen ∧
        d.sched.active.lookup runId = some entry ∧ Names defaultSocket entry seen := by
  cases t with
  | probing run cardId =>
      cases hnext
      exact .inl ⟨rfl, by simp⟩
  | observed run cardId herdr =>
      cases hprobe : probeRun defaultSocket herdr run with
      | unknown => simp [Task.next, hprobe] at hnext
      | gone =>
          simp only [Task.next, hprobe, Option.map_eq_some_iff] at hnext
          obtain ⟨current, -, rfl⟩ := hnext
          exact .inl ⟨rfl, by simp⟩
      | alive status =>
          simp only [Task.next, hprobe, Option.map_eq_some_iff] at hnext
          obtain ⟨current, hcurrent, rfl⟩ := hnext
          exact .inl ⟨congrArg some (sameOpenRun_some hcurrent).2.1.id, by simp⟩
  | gone run cardId seen => cases hnext
  | adopting a seen =>
      simp only [Task.next] at hnext
      split at hnext <;> cases hnext
      exact .inl ⟨rfl, by simp⟩
  | adopted runId cardId seen => cases hnext
  | event seen =>
      obtain ⟨runId, entry, rfl, hentry, hnames⟩ := routeByPane_some hnext
      exact .inr ⟨seen, runId, entry, rfl, rfl, hentry, hnames⟩
  | routed runId entry seen =>
      simp only [Task.next] at hnext
      split at hnext
      · split at hnext <;> cases hnext
        exact .inl ⟨rfl, by simp⟩
      · obtain ⟨cardId, -, rfl⟩ := Option.map_eq_some_iff.mp hnext
        exact .inl ⟨rfl, by simp⟩
  | carded runId cardId seen =>
      simp only [Task.next] at hnext
      split at hnext <;> cases hnext
      exact .inl ⟨rfl, by simp⟩
  | cleared runId cardId seen => cases hnext
  | closing runId entry seen => cases hnext

/-- Where a task stands after a lock scope, it still fits the store. -/
theorem fits_followUp {t t' : Task} (h : Fits defaultSocket d.db t)
    (hentries : ∀ k a, d.sched.active.lookup k = some a → OnPane d.db k a)
    (hnext : (t.next cfg defaultSocket env d).2 = some t') : Fits defaultSocket d.db t' := by
  cases t with
  | probing run cardId =>
      cases hnext
      trivial
  | observed run cardId herdr =>
      cases hprobe : probeRun defaultSocket herdr run with
      | unknown => simp [Task.next, hprobe] at hnext
      | gone =>
          obtain ⟨socket, paneId, snapshot, hsocket, hpane, hconnect, hsession, hstatus⟩ :=
            probeRun_seen (show probeRun defaultSocket herdr run = probeOf none from hprobe)
          simp only [Task.next, hprobe, hsocket, hpane, Option.getD_some, Option.map_eq_some_iff]
            at hnext
          obtain ⟨current, hcurrent, rfl⟩ := hnext
          refine ⟨?_, (stays_of_sameOpenRun hcurrent).1, rfl, hpane, herdr, rfl, hsocket⟩
          rintro _ ⟨rfl⟩
          exact ⟨snapshot, hconnect, hsession, hstatus⟩
      | alive status =>
          obtain ⟨socket, paneId, snapshot, hsocket, hpane, hconnect, hsession, hstatus⟩ :=
            probeRun_seen (show probeRun defaultSocket herdr run =
              probeOf (some status) from hprobe)
          simp only [Task.next, hprobe, hsocket, hpane, Option.getD_some, Option.map_eq_some_iff]
            at hnext
          obtain ⟨current, hcurrent, rfl⟩ := hnext
          refine ⟨?_, (stays_of_sameOpenRun hcurrent).2⟩
          rintro _ ⟨rfl⟩
          exact ⟨snapshot, hconnect, hsession, hstatus⟩
  | gone run cardId seen => cases hnext
  | adopting a seen =>
      simp only [Task.next] at hnext
      split at hnext <;> cases hnext
      exact h.1
  | adopted runId cardId seen => cases hnext
  | event seen =>
      obtain ⟨runId, entry, rfl, hentry, hnames⟩ := routeByPane_some hnext
      exact ⟨h, hentries runId entry hentry, hnames⟩
  | routed runId entry seen =>
      simp only [Task.next] at hnext
      split at hnext
      · next hstatus =>
        split at hnext
        · next hopen =>
            cases hnext
            refine ⟨h.1, h.2.1, ⟨hstatus, h.2.2⟩, fun r hr hid => ?_⟩
            exact started_of_runOpen hopen r hr hid
        · cases hnext
      · obtain ⟨cardId, -, rfl⟩ := Option.map_eq_some_iff.mp hnext
        exact h.1
  | carded runId cardId seen =>
      simp only [Task.next] at hnext
      split at hnext <;> cases hnext
      exact h
  | cleared runId cardId seen => cases hnext
  | closing runId entry seen => cases hnext

/-! ## Histories -/

/-- No run is inserted or registered under an id that a task in flight is about. -/
def FreshId (cfg : Config) (defaultSocket : String) (s : Reconciling) (l : ReconcileLabel) : Prop :=
  ∀ p ∈ s.pending, ∀ k, runOf p.task = some k →
    OnlyOld k s.world.daemon.db (s.next cfg defaultSocket l).world.daemon.db ∧
      ∀ l', l = .other l' → registers cfg s.world l' ≠ some k

/-- The watch entries are on the panes of their runs, and what the tasks remember fits the store. -/
structure Sound (defaultSocket : String) (s : Reconciling) : Prop where
  inv : Inv (life s.world.daemon.db.toTables)
  entries : ∀ k a, s.world.daemon.sched.active.lookup k = some a → OnPane s.world.daemon.db k a
  tasks : ∀ p ∈ s.pending, Fits defaultSocket s.world.daemon.db p.task

variable {s : Reconciling}

theorem entries_next (h : ∀ k a, d.sched.active.lookup k = some a → OnPane d.db k a)
    (hkept : RunsKept (fun _ => False) d.db d'.db) (hwatch : KeepsWatch d d') :
    ∀ k a, d'.sched.active.lookup k = some a → OnPane d'.db k a := by
  intro k a' ha'
  obtain ⟨a, ha, hpane, -⟩ := hwatch k a' ha'
  exact (h k a ha).next hkept not_false hpane

/-- The run that was registered is on the pane of its new entry. -/
theorem entries_registered {runId : Int} {handle : RuntimeHandle} {started : Instant}
    {deadline : Option Instant} {deadlineAtMs : Option Int} {run : Run}
    (hreg : Registers env runId handle started deadline deadlineAtMs run d d')
    (h : ∀ k a, d.sched.active.lookup k = some a → OnPane d.db k a)
    (hkept : RunsKept (· = runId) d.db d'.db) : ∀ k a, d'.sched.active.lookup k = some a →
      OnPane d'.db k a := by
  intro k a ha
  have hactive : d'.sched.active = d.sched.active.insert runId
      (registeredEntry run.cardId handle started deadline) := by
    rw [hreg.settled]
  have hid : run.id = runId := Table.key_of_find? hreg.found
  rw [hactive] at ha
  by_cases hk : k = runId
  · cases hk
    rw [AList.lookup_insert] at ha
    cases ha
    intro r' hr' hrid _
    have hruns : (life d'.db.toTables).runs = _ := congrArg Life.runs hreg.promoted
    have hmem : r' ∈ ((life d.db.toTables).promote run
        (launchOfHandle env handle deadlineAtMs)).runs := hruns ▸ hr'
    obtain ⟨r, hr, rfl⟩ := (rewrites_promote run _).mem_iff.mp hmem
    split at hrid
    · next hsame => simp [hsame, Life.Launch.start, launchOfHandle, launchOf, registeredEntry]
    · next hne => exact absurd (hrid.trans hid.symm) hne
  · rw [AList.lookup_insert_ne hk] at ha
    exact (h k a ha).next hkept hk rfl

theorem entries_adopted {a : Adoption} (h : ∀ k a, d.sched.active.lookup k = some a →
    OnPane d.db k a) (hstays : Stays d.db a.run) :
    ∀ k b, (insertReconciled a.run.id (a.entry env) d).sched.active.lookup k = some b →
      OnPane (insertReconciled a.run.id (a.entry env) d).db k b := by
  intro k b hb
  unfold insertReconciled at hb ⊢
  split at hb
  · next hwatched =>
      rw [if_pos hwatched]
      exact h k b hb
  · next hnew =>
      rw [if_neg hnew]
      by_cases hk : k = a.run.id
      · cases hk
        simp only [AList.lookup_insert, Option.some.injEq] at hb
        subst hb
        intro r hr hid _
        exact (hstays r hr hid).pane
      · simp only [AList.lookup_insert_ne hk] at hb
        exact h k b hb

/-- After a lock scope of a task the pending tasks are old ones, or where it stands now. -/
theorem mem_advance {i : Nat} {q : Pending} (hq : q ∈ (s.advance cfg defaultSocket i env).pending) :
    q ∈ s.pending ∨ ∃ p t, s.pending[i]? = some p ∧
      (p.task.next cfg defaultSocket env s.world.daemon).2 = some t ∧
      q = { p with task := t } := by
  unfold Reconciling.advance at hq
  cases hp : s.pending[i]? with
  | none =>
      rw [hp] at hq
      exact .inl hq
  | some p =>
      rw [hp] at hq
      simp only at hq
      split at hq
      · next t ht =>
          rcases List.mem_or_eq_of_mem_set hq with hq | rfl
          · exact .inl hq
          · exact .inr ⟨p, t, rfl, ht, rfl⟩
      · exact .inl (List.mem_of_mem_eraseIdx hq)

theorem daemon_advance {i : Nat} {p : Pending} (hp : s.pending[i]? = some p) :
    (s.advance cfg defaultSocket i env).world.daemon =
      (p.task.next cfg defaultSocket env s.world.daemon).1 := by
  simp only [Reconciling.advance, hp]

theorem insertReconciled_db (runId : Int) (a : ActiveRun) (d : DaemonState) :
    (insertReconciled runId a d).db = d.db := by
  unfold insertReconciled
  split <;> rfl

/-- A task starts no run and deletes no card. -/
theorem TaskServes.kept {t : Task} (h : TaskServes cfg env d t d')
    (hinv : Inv (life d.db.toTables)) :
    Inv (life d'.db.toTables) ∧ RunsKept (fun _ => False) d.db d'.db := by
  cases h with
  | nothing => exact ⟨hinv, runsKept_refl _ _⟩
  | watch _ x =>
      have hvia : Via (WatchCauses cfg env d.db x) d.db (serveWatch cfg env d x).db :=
        via_watch hinv x
      exact ⟨hvia.inv hinv, runsKept_of_via hvia (deletesOrKeeps_watch x) fun _ _ he => nomatch he⟩
  | insert a seen hnew =>
      rw [insertReconciled_db]
      exact ⟨hinv, runsKept_refl _ _⟩

theorem TaskServes.entries {t : Task} (h : TaskServes cfg env d t d')
    (hinv : Inv (life d.db.toTables))
    (hfits : Fits defaultSocket d.db t) (hentries : ∀ k a, d.sched.active.lookup k = some a →
    OnPane d.db k a) : ∀ k a, d'.sched.active.lookup k = some a → OnPane d'.db k a := by
  have hkept := (h.kept hinv).2
  cases h with
  | nothing => exact hentries
  | watch _ x => exact entries_next hentries hkept (keepsWatch_watch d x)
  | insert a seen hnew => exact entries_adopted hentries hfits.2

theorem Sound.advance (h : Sound defaultSocket s) (i : Nat) (env : Env)
    (hfresh : FreshId cfg defaultSocket s (.advance i env)) :
    Sound defaultSocket (s.advance cfg defaultSocket i env) := by
  cases hp : s.pending[i]? with
  | none =>
      simp only [Reconciling.advance, hp]
      exact h
  | some p =>
      have hfits := h.tasks p (List.mem_of_getElem? hp)
      have hserves : TaskServes cfg env s.world.daemon p.task
          (s.advance cfg defaultSocket i env).world.daemon :=
        by
        rw [daemon_advance hp]
        exact task_serves p.task s.world.daemon
      obtain ⟨hinv, hkept⟩ := hserves.kept h.inv
      refine ⟨hinv, hserves.entries h.inv hfits h.entries, fun q hq => ?_⟩
      rcases mem_advance hq with hq | ⟨p', t, hp', ht, rfl⟩
      · exact fits_next (h.tasks q hq) hkept (fun _ _ => not_false) fun k hk => (hfresh q hq k hk).1
      · cases hp.symm.trans hp'
        refine fits_next (fits_followUp hfits h.entries ht) hkept (fun _ _ => not_false) fun k hk =>
          ?_
        rcases followUp_about ht with ⟨hrun, -⟩ | ⟨seen, runId, entry, hevent, -⟩
        · exact (hfresh p (List.mem_of_getElem? hp) k (hrun ▸ hk)).1
        · rw [daemon_advance hp, hevent]
          exact onlyOld_refl k _

/-- A step of anything else that registers no run. -/
theorem Sound.unregistered (h : Sound defaultSocket s) (l : Label)
    (hadopt : ∀ env x, l ≠ .adopt env x)
    (hregister : ∀ env claimed column handle, l ≠ .dispatch env (.registered claimed column handle))
    {s' : Reconciling} (hfresh : ∀ p ∈ s'.pending, ∀ k, runOf p.task = some k →
      OnlyOld k s.world.daemon.db (s.world.next cfg l).daemon.db)
        (hworld : s'.world = s.world.next cfg l) (hpending : ∀ p ∈ s'.pending, p ∈ s.pending) :
        Sound defaultSocket s' := by
  have hvia := via_step_daemon cfg h.inv l
  have hkept : RunsKept (fun _ => False) s.world.daemon.db (s.world.next cfg l).daemon.db := by
    refine runsKept_of_via hvia (deletesOrKeeps_step cfg _ l) fun k a he => ?_
    cases he with
    | request env r _ hr => cases hr
    | watch env x _ hx => cases hx
    | registered env claimed column handle => exact hregister _ _ _ _ rfl
  refine ⟨?_, ?_, fun p hp => ?_⟩
  · rw [hworld]
    exact hvia.inv h.inv
  · rw [hworld]
    exact entries_next h.entries hkept (keepsWatch_next s.world l hadopt hregister)
  · rw [hworld]
    exact fits_next (h.tasks p (hpending p hp)) hkept (fun _ _ => not_false) (hfresh p hp)

theorem Sound.registered (h : Sound defaultSocket s) (env : Env) (claimed : Run × Card)
    (column : Column) (handle : RuntimeHandle)
    (hfresh : FreshId cfg defaultSocket s
      (.other (.dispatch env (.registered claimed column handle))))
    {s' : Reconciling}
    (hworld : s'.world = s.world.next cfg (.dispatch env (.registered claimed column handle)))
    (hpending : s'.pending = s.pending) : Sound defaultSocket s' := by
  have hvia := via_step_daemon cfg h.inv (.dispatch env (.registered claimed column handle))
  have hregisters := @watch_registered cfg s.world env claimed column handle
  rcases hregisters with ⟨hwatch, hdb, -⟩ | ⟨hsome, run, deadline, deadlineAtMs, hreg⟩
  · have hkept : RunsKept (fun _ => False) s.world.daemon.db
        (s.world.next cfg (.dispatch env (.registered claimed column handle))).daemon.db := by
      rw [hdb]
      exact runsKept_refl _ _
    refine ⟨?_, ?_, fun p hp => ?_⟩
    · rw [hworld]
      exact hvia.inv h.inv
    · rw [hworld]
      exact entries_next h.entries hkept hwatch
    · rw [hworld]
      rw [hpending] at hp
      exact fits_next (h.tasks p hp) hkept (fun _ _ => not_false) fun k hk => (hfresh p hp k hk).1
  · have hkept : RunsKept (· = claimed.1.id) s.world.daemon.db
        (s.world.next cfg (.dispatch env (.registered claimed column handle))).daemon.db := by
      refine runsKept_of_via hvia (deletesOrKeeps_step cfg _ _) fun k a he => ?_
      cases he with
      | registered => rfl
    refine ⟨?_, ?_, fun p hp => ?_⟩
    · rw [hworld]
      exact hvia.inv h.inv
    · rw [hworld]
      exact entries_registered hreg h.entries hkept
    · rw [hworld]
      rw [hpending] at hp
      refine fits_next (h.tasks p hp) hkept (fun k hk heq => ?_) fun k hk => (hfresh p hp k hk).1
      exact (hfresh p hp k hk).2 _ rfl (heq ▸ hsome)

theorem Sound.serve (h : Sound defaultSocket s) (l : Label)
    (hfresh : FreshId cfg defaultSocket s (.other l)) : Sound defaultSocket (s.serve cfg l) := by
  cases l with
  | adopt env x => exact h
  | restart =>
      exact @Sound.unregistered cfg _ _ h .restart (by simp) (by simp) _ (fun p hp => nomatch hp)
        rfl fun p hp => nomatch hp
  | request env r =>
      exact h.unregistered (.request env r) (by simp) (by simp)
        (fun p hp k hk => (hfresh p hp k hk).1) rfl fun _ => id
  | watch env x =>
      exact h.unregistered (.watch env x) (by simp) (by simp)
        (fun p hp k hk => (hfresh p hp k hk).1) rfl fun _ => id
  | dispatch env x =>
      by_cases hregister : ∃ claimed column handle, x = .registered claimed column handle
      · obtain ⟨claimed, column, handle, rfl⟩ := hregister
        exact h.registered env claimed column handle hfresh rfl rfl
      · refine h.unregistered (.dispatch env x) (by simp) (fun env' claimed column handle heq => ?_)
          (fun p hp k hk => (hfresh p hp k hk).1) rfl fun _ => id
        cases heq
        exact hregister ⟨claimed, column, handle, rfl⟩

theorem Sound.fewer (h : Sound defaultSocket s) {s' : Reconciling} (hworld : s'.world = s.world)
    (hpending : ∀ p ∈ s'.pending, p ∈ s.pending ∨ Fits defaultSocket s.world.daemon.db p.task) :
    Sound defaultSocket s' := by
  refine ⟨hworld ▸ h.inv, hworld ▸ h.entries, fun p hp => ?_⟩
  rw [hworld]
  exact (hpending p hp).elim (h.tasks p) id

theorem fits_reconcileSocket {herdr : Herdr} {socket : String} {watched : List String} {t : Task}
    (ht : t ∈ reconcileSocket herdr socket watched) : Fits defaultSocket db t := by
  unfold reconcileSocket at ht
  split at ht
  · cases ht
  · next panes hanswer =>
      obtain ⟨paneId, -, rfl⟩ := List.mem_map.mp ht
      rintro _ ⟨rfl⟩
      obtain ⟨snapshot, hconnect, hsession, rfl⟩ := herdr_snapshot_ok hanswer
      exact ⟨snapshot, hconnect, hsession, rfl⟩

theorem Sound.next (h : Sound defaultSocket s) (l : ReconcileLabel)
    (hfresh : FreshId cfg defaultSocket s l) :
    Sound defaultSocket (s.next cfg defaultSocket l) := by
  cases l with
  | other l => exact (h.serve l hfresh).fewer rfl fun p hp => .inl hp
  | readActive =>
      refine h.fewer rfl fun p hp => ?_
      rcases List.mem_append.mp hp with hp | hp
      · exact .inl hp
      · obtain ⟨rc, -, rfl⟩ := List.mem_map.mp hp
        exact .inr trivial
  | probe i herdr =>
      simp only [Reconciling.next]
      split
      · refine h.fewer rfl fun p hp => ?_
        rcases List.mem_or_eq_of_mem_set hp with hp | rfl
        · exact .inl hp
        · exact .inr trivial
      · exact h.fewer rfl fun p hp => .inl hp
  | snapshot socket watched herdr =>
      refine h.fewer rfl fun p hp => ?_
      rcases List.mem_append.mp hp with hp | hp
      · exact .inl hp
      · obtain ⟨t, ht, rfl⟩ := List.mem_map.mp hp
        exact .inr (fits_reconcileSocket ht)
  | emit socket paneId status =>
      refine h.fewer rfl fun p hp => ?_
      rcases List.mem_append.mp hp with hp | hp
      · exact .inl hp
      · cases List.mem_singleton.mp hp
        exact .inr fun _ h => nomatch h
  | advance i env => exact (h.advance i env hfresh).fewer rfl fun p hp => .inl hp

theorem sound_of_reachable (h : (reconciling cfg defaultSocket).ReachableBy
    (FreshId cfg defaultSocket) s) : Sound defaultSocket s := by
  refine h.invariant (I := Sound defaultSocket) ?_ ?_
  · rintro s rfl
    exact ⟨inv_fresh, (fun k a ha => nomatch ha), fun p hp => nomatch hp⟩
  · rintro s l s' hs hfresh rfl
    exact hs.next l hfresh

end HerdrBoard.Reconcile
