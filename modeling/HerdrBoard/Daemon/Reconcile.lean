import HerdrBoard.Daemon.System

/-!
# Reconciliation with Herdr

The supervisor and the Herdr watcher ask a session about its panes outside every lock, and apply the
answer in lock scopes of their own. Between asking and applying, and between those scopes, any other
step may run. -/

open Lib HerdrBoard.Core

namespace HerdrBoard.Daemon

/-! ## Asking Herdr -/

inductive HerdrError where
  | io
  | protocol (code message : String)
  | decode
  | deadline (operation : String)
  | disconnected

inductive ProbeFailure where
  | deadline
  | malformed
  | transport

def classifyHerdrError : HerdrError → ProbeFailure
  | .deadline _ => .deadline
  | .decode => .malformed
  | _ => .transport

inductive AgentStatus where
  | idle
  | working
  | blocked
  | done
  | unknown
  deriving DecidableEq

/-- A pane or an agent of a snapshot. -/
structure PaneStatus where
  paneId : String
  agentStatus : AgentStatus

structure SessionSnapshot where
  panes : List PaneStatus
  agents : List PaneStatus

/-- The map of `snapshot_pane_statuses`: an agent's status goes before its pane's, a later pane
before an earlier one. -/
def snapshotPaneStatuses (snapshot : SessionSnapshot) (paneId : String) : Option AgentStatus :=
  (snapshot.panes.reverse.find? fun pane => pane.paneId == paneId).map fun pane =>
    ((snapshot.agents.find? fun agent => agent.paneId == pane.paneId).map
      PaneStatus.agentStatus).getD pane.agentStatus

/-- What the session registry and the sockets answer while one question is asked. -/
structure Herdr where
  /-- The socket of a named session that runs. -/
  resolve : String → Option String
  connectChecked : String → Except HerdrError Unit
  sessionSnapshot : String → Except HerdrError SessionSnapshot
  /-- The worker that asks panics. -/
  panics : Bool

/-- `WatchConnector::snapshot`. -/
def Herdr.snapshot (herdr : Herdr) (socket : String) :
    Except HerdrError (String → Option AgentStatus) := do
  herdr.connectChecked socket
  let snapshot ← herdr.sessionSnapshot socket
  pure (snapshotPaneStatuses snapshot)

inductive SessionTarget where
  | default (socket : String)
  | resolved (socket : String)
  | unresolved

def SessionTarget.socket : SessionTarget → Option String
  | .default socket | .resolved socket => some socket
  | .unresolved => none

/-- The socket of a watch handle: none for the default session. -/
def SessionTarget.handleSocket : SessionTarget → Option String
  | .resolved socket => some socket
  | .default _ | .unresolved => none

def resolveTarget (defaultSocket : String) (herdr : Herdr) (session : Option String) :
    SessionTarget :=
  match session with
  | none => .default defaultSocket
  | some name =>
      match herdr.resolve name with
      | some socket => .resolved socket
      | none => .unresolved

/-- `HerdrRuntime::snapshot`. -/
def runtimeSnapshot (herdr : Herdr) (target : SessionTarget) :
    Except ProbeFailure (String → Option AgentStatus) :=
  match target.socket with
  | none => .error .transport
  | some socket => (herdr.snapshot socket).mapError classifyHerdrError

inductive RuntimeProbe where
  | alive (status : AgentStatus)
  | gone
  | unknown

/-- `RuntimeSnapshot::observe`. -/
def observePane (panes : String → Option AgentStatus) (paneId : String) : RuntimeProbe :=
  match panes paneId with
  | some status => .alive status
  | none => .gone

/-- What `reconcile_once` learns about a run. -/
def probeRun (defaultSocket : String) (herdr : Herdr) (run : Run) : RuntimeProbe :=
  match resolveTarget defaultSocket herdr run.session, run.herdrPaneId with
  | .unresolved, _ | _, none => .unknown
  | target, some paneId =>
      if herdr.panics then .unknown
      else match runtimeSnapshot herdr target with
        | .ok panes => observePane panes paneId
        | .error _ => .unknown

/-! ## Between asking and applying -/

/-- What was seen of a pane: its status, or that it is gone, in a snapshot or in an event
of the stream. -/
structure Sighting where
  socket : String
  paneId : String
  status : Option AgentStatus
  /-- Who answered with the snapshot; none for an event of the stream. -/
  snapshot : Option Herdr

/-- Where a thread of the supervisor or of the watcher stands between two lock scopes. -/
inductive Task where
  /-- `reconcile_once` read the run and has not asked about it. -/
  | probing (run : Run) (cardId : Int)
  | observed (run : Run) (cardId : Int) (herdr : Herdr)
  /-- `same_open_run` found the run that is gone. -/
  | gone (run : Run) (cardId : Int) (seen : Sighting)
  /-- `same_open_run` found the run that is alive. -/
  | adopting (a : Adoption) (seen : Sighting)
  | adopted (runId cardId : Int) (seen : Sighting)
  /-- `handle_event_from_socket` starts. -/
  | event (seen : Sighting)
  /-- `find_run_by_pane` found a run by its watch entry. -/
  | routed (runId : Int) (entry : ActiveRun) (seen : Sighting)
  /-- `card_of` found its card. -/
  | carded (runId cardId : Int) (seen : Sighting)
  /-- `clear_idle` is done. -/
  | cleared (runId cardId : Int) (seen : Sighting)
  /-- `run_open` held for the run whose pane is gone. -/
  | closing (runId : Int) (entry : ActiveRun) (seen : Sighting)

def AgentStatus.signal : AgentStatus → Option AgentSignal
  | .working => some .working
  | .blocked => some .blocked
  | .done => some .done
  | .idle | .unknown => none

variable (cfg : Config) (defaultSocket : String) (env : Env)

/-- The signal of the status that was seen. -/
def signalSeen (runId cardId : Int) (seen : Sighting) (d : DaemonState) : DaemonState :=
  match seen.status.bind AgentStatus.signal with
  | some signal => applySignal env runId cardId signal d
  | none => d

/-- `finalize_run` of a run whose pane is gone. -/
def finalizeGone (runId : Int) (message : String) (d : DaemonState) : DaemonState :=
  finalState (finalizeRun cfg env runId .fail (some message) (some message) false false d)

/-- `find_run_by_pane`, with the watch entry it found. -/
def routeByPane (d : DaemonState) (seen : Sighting) : Option Task :=
  (findRunByPane d defaultSocket seen.paneId seen.socket).bind fun runId =>
    (d.sched.active.lookup runId).map fun entry => .routed runId entry seen

/-- The next lock scope of a task, and where the task stands after it. -/
def Task.next (d : DaemonState) : Task → DaemonState × Option Task
  | .probing run cardId => (d, some (.probing run cardId))
  | .observed run cardId herdr =>
      let target := resolveTarget defaultSocket herdr run.session
      let seen (status : Option AgentStatus) : Sighting :=
        { socket := target.socket.getD "",
          paneId := run.herdrPaneId.getD "", status, snapshot := some herdr }
      match probeRun defaultSocket herdr run with
      | .unknown => (d, none)
      | .gone => (d, (sameOpenRun d.db run cardId).map fun _ => .gone run cardId (seen none))
      | .alive status =>
          (d, (sameOpenRun d.db run cardId).map fun current =>
            .adopting { run := current, cardId, socket := target.handleSocket, startup := false }
              (seen (some status)))
  | .gone run _ _ => (finalizeGone cfg env run.id "daemon restart: pane exited" d, none)
  | .adopting a seen =>
      if (d.sched.active.lookup a.run.id).isSome then (d, none)
      else (insertReconciled a.run.id (a.entry env) d, some (.adopted a.run.id a.cardId seen))
  | .adopted runId cardId seen => (signalSeen env runId cardId seen d, none)
  | .event seen => (d, routeByPane defaultSocket d seen)
  | .routed runId entry seen =>
      match seen.status with
      | none => (d, if runOpen d runId then some (.closing runId entry seen) else none)
      | some _ => (d, (cardOf d runId).map fun cardId => .carded runId cardId seen)
  | .carded runId cardId seen =>
      match seen.status with
      | some .idle => (armIdle env runId d, none)
      | some .unknown | none => (d, none)
      | some _ => (setIdle runId none d, some (.cleared runId cardId seen))
  | .cleared runId cardId seen => (signalSeen env runId cardId seen d, none)
  | .closing runId _ _ => (finalizeGone cfg env runId "pane exited without board done" d, none)

/-- The panes a snapshot of `reconcile_socket` was taken for, as events. -/
def reconcileSocket (herdr : Herdr) (socket : String) (watched : List String) : List Task :=
  match herdr.snapshot socket with
  | .error _ => []
  | .ok panes => watched.map fun paneId =>
      .event { socket, paneId, status := panes paneId, snapshot := some herdr }

/-! ## The daemon with its reconciliations -/

/-- A task, and when what it applies was seen. -/
structure Pending where
  task : Task
  seenAt : Nat

structure Reconciling where
  world : World
  pending : List Pending
  /-- The number of steps so far. -/
  clock : Nat
  /-- When each run was last registered. -/
  registeredAt : Int → Nat

inductive ReconcileLabel where
  /-- A step of anything else. -/
  | other (l : Label)
  /-- `reconcile_once` reads the active runs. -/
  | readActive
  | probe (i : Nat) (herdr : Herdr)
  /-- `reconcile_socket` takes a snapshot. -/
  | snapshot (socket : String) (watched : List String) (herdr : Herdr)
  /-- A Herdr session emits an event. -/
  | emit (socket paneId : String) (status : Option AgentStatus)
  | advance (i : Nat) (env : Env)

/-- The run that a step registers. -/
def registers (w : World) : Label → Option Int
  | .dispatch env (.registered claimed column handle) =>
      let deadlines := startDeadlines cfg env column
      match registerSpawnedRun env claimed.1.id handle env.instant deadlines.1 deadlines.2
        w.daemon with
      | .ok true _ => if claimed ∈ w.launching then some claimed.1.id else none
      | _ => none
  | _ => none

def Reconciling.tick (s : Reconciling) : Reconciling := { s with clock := s.clock + 1 }

/-- A step of anything else. Adoption is a task; what is in flight is lost when the
daemon restarts. -/
def Reconciling.serve (s : Reconciling) (l : Label) : Reconciling :=
  match l with
  | .adopt _ _ => s
  | .restart => { s with world := s.world.next cfg .restart, pending := [] }
  | l =>
      { s with
        world := s.world.next cfg l
        registeredAt := match registers cfg s.world l with
          | some runId => Function.update s.registeredAt runId s.clock
          | none => s.registeredAt }

/-- Take the task at `i` one lock scope further. -/
def Reconciling.advance (s : Reconciling) (i : Nat) (env : Env) : Reconciling :=
  match s.pending[i]? with
  | none => s
  | some p =>
      let after := p.task.next cfg defaultSocket env s.world.daemon
      { s with
        world.daemon := after.1
        pending := match after.2 with
          | some task => s.pending.set i { p with task }
          | none => s.pending.eraseIdx i }

def Reconciling.next (s : Reconciling) (l : ReconcileLabel) : Reconciling :=
  Reconciling.tick <| match l with
    | .other l => s.serve cfg l
    | .readActive =>
        { s with
          pending := s.pending ++ s.world.daemon.db.activeRunsWithCards.map fun rc =>
            { task := .probing rc.1 rc.2.id, seenAt := s.clock } }
    | .probe i herdr =>
        match s.pending[i]? with
        | some { task := .probing run cardId, .. } =>
            { s with
              pending := s.pending.set i { task := .observed run cardId herdr, seenAt := s.clock } }
        | _ => s
    | .snapshot socket watched herdr =>
        { s with
          pending := s.pending ++ (reconcileSocket herdr socket watched).map fun task =>
            { task, seenAt := s.clock } }
    | .emit socket paneId status =>
        { s with pending := s.pending ++
          [{ task := .event { socket, paneId, status, snapshot := none }, seenAt := s.clock }] }
    | .advance i env => s.advance cfg defaultSocket i env

def Reconciling.start (db : Db) : Reconciling :=
  { world := .start db, pending := [], clock := 0, registeredAt := fun _ => 0 }

def Reconciling.run (s : Reconciling) : List ReconcileLabel → Reconciling
  | [] => s
  | l :: ls => (s.next cfg defaultSocket l).run ls

/-- Every history of the daemon on a fresh database, with reconciliations and Herdr events. -/
def reconciling : System Reconciling ReconcileLabel where
  init s := s = .start Db.fresh
  step s l s' := s' = s.next cfg defaultSocket l

variable {cfg defaultSocket}

theorem reconciling_reachable_run {s : Reconciling}
    (h : (reconciling cfg defaultSocket).Reachable s) (ls : List ReconcileLabel) :
    (reconciling cfg defaultSocket).Reachable (s.run cfg defaultSocket ls) := by
  induction ls generalizing s with
  | nil => exact h
  | cons l ls ih => exact ih (h.step trivial (l := l) rfl)

end HerdrBoard.Daemon
