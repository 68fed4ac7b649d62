import HerdrBoard.Daemon.Ops
import HerdrBoard.Lib.Transition

/-!
# The running daemon

A transition system whose steps are the lock scopes of the daemon. Between the scopes of one
request, launch, dispatch pass or adoption, any other step may run. -/

open Lib HerdrBoard.Core

namespace HerdrBoard.Daemon

instance (claimed : Run × Card) (launching : List (Run × Card)) : Decidable (claimed ∈ launching) :=
  inferInstance

/-- A lock scope that serves a client. -/
inductive Request where
  | cardCreate (p : CardCreateParams)
  | cardDuplicate (id : Int)
  | cardUpdate (p : CardUpdateParams)
  | cardDelete (id : Int)
  | cardArchive (id : Int) (archived : Bool)
  | cardMove (p : CardMoveParams)
  | commentAdd (p : CommentAddParams)
  | commentUpdate (id : Int) (body : String) (actorRunId : Option Int)
  | commentDelete (id : Int) (actorRunId : Option Int)
  | runRetryReset (cardId : Int)
  | runRetryEnqueue (cardId columnId : Int)
  | runCancelQueued (cardId : Int)
  | columnCreate (p : ColumnCreateParams)
  | columnUpdate (p : ColumnUpdateParams)
  | columnReorder (id position : Int)
  | columnDelete (id : Int) (moveCardsTo : Option Int)
  | templateApply (boardId : Int)
  | boardOpen (scopePath : String)
  | boardCreate (projectId : Int) (name : String)
  | boardSelect (boardId : Int)
  | boardRename (boardId : Int) (name : String)
  | boardArchive (boardId : Int) (archived : Bool)
  | projectCreate (scopePath : String)
  | projectOpen (scopePath : String)
  | projectSelect (scopePath : String) (boardId : Option Int)
  | projectArchive (scopePath : String) (archived : Bool)

/-- A lock scope of the watchers and of whatever finishes a run. -/
inductive Watch where
  /-- The second scope of `run.done`, `run.pane_exited`, `run.cancel` and of a pane found gone. -/
  | finalizeRun (runId : Int) (outcome : RunOutcome) (summary extraComment : Option String)
      (kill transition : Bool)
  | candidate (c : Candidate) (now : Instant)
  | signal (runId cardId : Int) (signal : AgentSignal)
  | clearIdle (runId : Int)
  | armIdle (runId : Int)
  /-- The liveness poller drops a run that is no longer open. -/
  | forget (runId : Int)

/-- The second scope of `run.done`, on the run and the plan that its first one chose. -/
def Watch.runDone (p : RunDoneParams) (run : Run) (plan : FinalizePlan) : Watch :=
  .finalizeRun run.id plan.outcome p.summary none plan.kill plan.transition

def Watch.runPaneExited (run : Run) (plan : FinalizePlan) : Watch :=
  .finalizeRun run.id plan.outcome (some "configured harness exited without calling board done")
    (some "pane exited without board done") plan.kill plan.transition

def Watch.runCancel (run : Run) : Watch :=
  .finalizeRun run.id .cancelled (some "cancelled by user") none true false

/-- A lock scope of a dispatch pass or of one of its launches. -/
inductive Dispatch where
  | readActive
  | claim
  | registered (claimed : Run × Card) (column : Column) (handle : RuntimeHandle)
  | failed (claimed : Run × Card) (reason : String)
  /-- The launch ended with an error before it touched the run. -/
  | abandoned (claimed : Run × Card)
  /-- A note about the launched harness. -/
  | warned (cardId : Int) (body : String)

/-- A run found alive whose watch entry is not inserted yet. -/
structure Adoption where
  run : Run
  cardId : Int
  socket : Option String
  /-- Startup adoption inserts whatever is watched already. -/
  startup : Bool
  deriving DecidableEq

inductive Adopt where
  | observe (a : Adoption)
  | insert (a : Adoption)

inductive Label where
  | request (env : Env) (r : Request)
  | watch (env : Env) (e : Watch)
  | dispatch (env : Env) (e : Dispatch)
  | adopt (env : Env) (e : Adopt)
  | restart

/-- The daemon with what its threads hold between lock scopes. -/
structure World where
  daemon : DaemonState
  /-- The active runs read by a dispatch pass that has not claimed yet. -/
  pass : Option (List (Run × Card))
  /-- Claimed runs whose launch has not ended. -/
  launching : List (Run × Card)
  adopting : List Adoption

def World.start (db : Db) : World :=
  { daemon := .start db, pass := none, launching := [], adopting := [] }

variable (cfg : Config) (env : Env)

def serveRequest (d : DaemonState) : Request → DaemonState
  | .cardCreate p => finalState (cardCreate cfg env p d)
  | .cardDuplicate id => finalState (cardDuplicate env id d)
  | .cardUpdate p => finalState (cardUpdate env p d)
  | .cardDelete id => finalState (cardDelete id d)
  | .cardArchive id archived => finalState (cardArchive env id archived d)
  | .cardMove p => finalState (cardMove cfg env p d)
  | .commentAdd p => finalState (commentAdd env p d)
  | .commentUpdate id body actor => finalState (commentUpdate env id body actor d)
  | .commentDelete id actor => finalState (commentDelete env id actor d)
  | .runRetryReset cardId => finalState (retryReset cardId d)
  | .runRetryEnqueue cardId columnId => finalState (enqueueRun cfg env cardId columnId true d)
  | .runCancelQueued cardId => finalState (cancelQueued env cardId d)
  | .columnCreate p => finalState (columnCreate env p d)
  | .columnUpdate p => finalState (columnUpdate env p d)
  | .columnReorder id position => finalState (store (reorderColumn id position) d)
  | .columnDelete id dst => finalState (columnDelete env id dst d)
  | .templateApply boardId => finalState (templateApply boardId d)
  | .boardOpen scopePath => finalState (store (openBoard scopePath) d)
  | .boardCreate projectId name => finalState (store (createBoard projectId name) d)
  | .boardSelect boardId => finalState (store (selectBoard boardId) d)
  | .boardRename boardId name => finalState (store (renameBoard boardId name) d)
  | .boardArchive boardId archived =>
      finalState (store (setBoardArchived env.conn boardId archived) d)
  | .projectCreate scopePath => finalState (store (createProjectContext scopePath) d)
  | .projectOpen scopePath => finalState (store (openProjectContext scopePath) d)
  | .projectSelect scopePath boardId =>
      finalState (store (selectProjectByScope scopePath boardId) d)
  | .projectArchive scopePath archived =>
      finalState (store (setProjectArchived env.conn scopePath archived) d)

def serveWatch (d : DaemonState) : Watch → DaemonState
  | .finalizeRun runId outcome summary extra kill transition =>
      finalState (finalizeRun cfg env runId outcome summary extra kill transition d)
  | .candidate c now => applyCandidate cfg env c now d
  | .signal runId cardId signal => applySignal env runId cardId signal d
  | .clearIdle runId => setIdle runId none d
  | .armIdle runId => armIdle env runId d
  | .forget runId =>
      if runOpen d runId then d else { d with sched.active := d.sched.active.erase runId }

/-- A launch ends with the registration of its handle, or with the failure of its run. -/
def serveDispatch (w : World) : Dispatch → World
  | .readActive =>
      -- the pass lock is held until every launch of the pass has ended
      if w.pass.isNone ∧ w.launching = []
        then { w with pass := some w.daemon.db.activeRunsWithCards } else w
  | .claim =>
      match w.pass with
      | none => w
      | some active =>
          { w with
            pass := none
            launching :=
              (claimLoop (max cfg.maxConcurrent 1)
                (claimStart active) w.daemon.db.queuedRunsWithCards).claimed }
  | .registered claimed column handle =>
      if claimed ∈ w.launching then
        let deadlines := startDeadlines cfg env column
        { w with
          daemon := finalState (registerSpawnedRun env claimed.1.id handle env.instant deadlines.1
            deadlines.2 w.daemon)
          launching := w.launching.erase claimed }
      else w
  | .failed claimed reason =>
      if claimed ∈ w.launching then
        { w with
          daemon := finalState (failQueuedRun env claimed.1.id reason w.daemon)
          launching := w.launching.erase claimed }
      else w
  | .abandoned claimed => { w with launching := w.launching.erase claimed }
  | .warned cardId body =>
      { w with daemon := finalState (store (addComment env.conn cardId "system" body) w.daemon) }

/-- The watch entry of an adopted run. -/
def Adoption.entry (a : Adoption) : ActiveRun := adoptedRun env a.cardId a.run a.socket

def serveAdopt (w : World) : Adopt → World
  | .observe a =>
      match sameOpenRun w.daemon.db a.run a.cardId with
      | some current => { w with adopting := { a with run := current } :: w.adopting }
      | none => w
  | .insert a =>
      if a ∈ w.adopting then
        { w with
          daemon :=
            if a.startup then insertAdopted a.run.id (a.entry env) w.daemon
            else insertReconciled a.run.id (a.entry env) w.daemon
          adopting := w.adopting.erase a }
      else w

def World.next (w : World) : Label → World
  | .request env r => { w with daemon := serveRequest cfg env w.daemon r }
  | .watch env e => { w with daemon := serveWatch cfg env w.daemon e }
  | .dispatch env e => serveDispatch cfg env w e
  | .adopt env e => serveAdopt env w e
  | .restart => .start w.daemon.db

/-- The daemon after a list of steps. -/
def World.run (w : World) : List Label → World
  | [] => w
  | l :: ls => (w.next cfg l).run ls

/-- Every history of the daemon on a fresh database. -/
def boardd : System World Label where
  init w := w = .start Db.fresh
  step w l w' := w' = w.next cfg l

variable {cfg}

theorem reachable_start : (boardd cfg).Reachable (.start Db.fresh) := System.ReachableBy.init rfl

theorem reachableBy_run {ok : World → Label → Prop} {w : World} (h : (boardd cfg).ReachableBy ok w)
    (ls : List Label)
    (hok : ∀ l ∈ ls, ∀ w, ok w l) : (boardd cfg).ReachableBy ok (w.run cfg ls) := by
  induction ls generalizing w with
  | nil => exact h
  | cons l ls ih => exact ih (h.step (hok l (by simp) w) rfl) fun l hl => hok l (by simp [hl])

theorem reachable_run {w : World} (h : (boardd cfg).Reachable w) (ls : List Label) :
    (boardd cfg).Reachable (w.run cfg ls) := reachableBy_run h ls fun _ _ _ => trivial

end HerdrBoard.Daemon
