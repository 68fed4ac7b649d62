import HerdrBoard.Daemon.System

/-!
# Launching a claimed run

What `spawn_one` makes of the answers of the session registry, of Herdr and of the spawner, and the
launches of a dispatch pass between their lock scopes. -/

open Lib HerdrBoard.Core

namespace HerdrBoard.Daemon

/-! ## The launch plan -/

/-- Slug length cap for a run-pane name. -/
def SLUG_MAX : Nat := 24

/-- Lowercased, every run of other characters collapsed to one dash. -/
def slugChars (prevDash : Bool) : List Char → List Char
  | [] => []
  | ch :: rest =>
      if ch.isAlphanum then ch.toLower :: slugChars false rest
      else if prevDash then slugChars true rest
      else '-' :: slugChars true rest

def dropDashes (chars : List Char) : List Char := chars.dropWhile (· == '-')

def columnSlug (columnName : String) : String :=
  let trimmed := (dropDashes (dropDashes (slugChars false columnName.toList)).reverse).reverse
  String.ofList (dropDashes (trimmed.take SLUG_MAX).reverse).reverse

def runPaneName (cardId : Int) (columnName : String) : String :=
  if columnSlug columnName = "" then s!"card-{cardId}"
    else s!"card-{cardId}-{columnSlug columnName}"

def runPaneNameUnique (cardId : Int) (columnName : String) (runId : Int) : String :=
  s!"{runPaneName cardId columnName}-r{runId}"

structure WorkspaceBootstrapHint where
  tabId : String
  rootPaneId : String
  deriving DecidableEq

/-- A request to launch one agent process. -/
structure HerdrLaunchPlan where
  name : String
  agentKind : Option String
  initialPrompt : Option String
  systemPrompt : Option String
  nameFallback : Option String
  tabLabel : Option String
  ownedTabId : Option String
  durablePaneIds : List String
  reclaimablePaneIds : List String
  durableAnchorPaneIds : List String
  reusePaneId : Option String
  cwd : Option String
  workspaceRef : Option String
  herdrSocket : Option String
  bootstrap : Option WorkspaceBootstrapHint
  env : List (String × String)
  argv : List String
  deriving DecidableEq

def harnessPromptEnv (harness prompt : String) (systemPrompt : Option String) :
    List (String × String) :=
  if isBuiltinHarness harness then []
  else [("BOARD_PROMPT", prompt), ("BOARD_SYSTEM_PROMPT", protocolSystemPrompt systemPrompt)]

/-- What a row without a launch spec executes. -/
def legacyExecution (run : Run) (column : Column) : ExecutionSpec :=
  let builtin := isBuiltinHarness run.harness
  let managed := builtin && run.systemPromptSnapshot.isSome
  { argv := run.argv
    env :=
      if builtin then []
      else match run.systemPromptSnapshot with
        | some snapshot => [("BOARD_PROMPT", run.promptSnapshot), ("BOARD_SYSTEM_PROMPT", snapshot)]
        | none => harnessPromptEnv run.harness run.promptSnapshot column.systemPrompt
    agentKind := if managed then some run.harness else none
    initialPrompt := if managed then some run.promptSnapshot else none
    systemPrompt := if managed then run.systemPromptSnapshot else none }

/-- The board variables a launched pane needs to talk back to the daemon. -/
def boardEnv (cardId : Int) (runId : Option Int) (socketPath exe : String) :
    List (String × String) :=
  ("BOARD_CARD_ID", toString cardId) ::
    (runId.map fun id => ("BOARD_RUN_ID", toString id)).toList ++
    [("BOARD_SOCKET", socketPath), ("BOARD_BIN", exe)]

/-- The request before its session and workspace are resolved. -/
def launchPlan (socketPath exe : String) (run : Run) (card : Card) (column : Column) :
    HerdrLaunchPlan :=
  let execution := run.launchSpec.getD (legacyExecution run column)
  { name := runPaneName card.id column.name
    agentKind := execution.agentKind
    initialPrompt := execution.initialPrompt
    systemPrompt := execution.systemPrompt
    nameFallback := some (runPaneNameUnique card.id column.name run.id)
    tabLabel := some (if run.launchSpec.isSome then s!"card-{card.id}" else "kanban")
    ownedTabId := none
    durablePaneIds := []
    reclaimablePaneIds := []
    durableAnchorPaneIds := []
    reusePaneId := none
    cwd := none
    workspaceRef := none
    herdrSocket := none
    bootstrap := none
    env := execution.env ++ boardEnv card.id (some run.id) socketPath exe
    argv := execution.argv }

/-! ## One launch -/

/-- How a call ended. -/
inductive Called (α : Type) where
  | returned (a : α)
  | failed (message : String)
  | panicked (message : String)

def Called.isPanicked {α : Type} : Called α → Bool
  | .panicked _ => true
  | _ => false

structure SessionRegistry where
  defaultSocket : String
  /-- The socket of a session. -/
  resolve : Option String → Called String

/-- What the workspace resolution of a launch returns. -/
structure ResolvedWorkspace where
  workspaceId : String
  cwd : String
  bootstrap : Option WorkspaceBootstrapHint
  ownedTabId : Option String
  durablePaneIds : List String
  reclaimablePaneIds : List String
  durableAnchorPaneIds : List String
  reusePaneId : Option String

/-- What one launch is told from outside the daemon. -/
structure Answers where
  currentExe : Except String String
  /-- None under the local spawner. -/
  sessionRegistry : Option SessionRegistry
  workspace : Called ResolvedWorkspace
  spawn : HerdrLaunchPlan → Called RuntimeHandle

def HerdrLaunchPlan.onSocket (req : HerdrLaunchPlan) (registry : SessionRegistry)
    (socket : String) : HerdrLaunchPlan :=
  if socket = registry.defaultSocket then req else { req with herdrSocket := some socket }

def HerdrLaunchPlan.inWorkspace (req : HerdrLaunchPlan) (w : ResolvedWorkspace) : HerdrLaunchPlan :=
  { req with
    workspaceRef := some w.workspaceId
    cwd := some w.cwd
    bootstrap := w.bootstrap
    ownedTabId := w.ownedTabId
    durablePaneIds := w.durablePaneIds
    reclaimablePaneIds := w.reclaimablePaneIds
    durableAnchorPaneIds := w.durableAnchorPaneIds
    reusePaneId := w.reusePaneId }

/-- The launch after the spawner's answer. -/
def afterSpawn (claimed : Run × Card) (column : Column) : Called RuntimeHandle → Dispatch
  | .returned handle => .registered claimed column handle
  | .failed e => .failed claimed s!"spawn failed: {e}"
  | .panicked e => .failed claimed s!"spawn task panicked: {e}"

/-- The scope that ends the launch of a claimed run whose column was read. -/
def spawnOne (socketPath : String) (a : Answers) (claimed : Run × Card) (column : Column) :
    Dispatch :=
  match a.currentExe with
  | .error _ => .abandoned claimed
  | .ok exe =>
      let req := launchPlan socketPath exe claimed.1 claimed.2 column
      match a.sessionRegistry with
      | none => afterSpawn claimed column (a.spawn req)
      | some registry =>
          match registry.resolve (launchSession claimed.1 claimed.2) with
          -- a panic of the launch task itself
          | .panicked _ => .abandoned claimed
          | .failed e => .failed claimed s!"session resolve: {e}"
          | .returned socket =>
              match a.workspace with
              -- the join error of the resolving task is returned before the run is touched
              | .panicked _ => .abandoned claimed
              | .failed e => .failed claimed e
              | .returned w => afterSpawn claimed column
                  (a.spawn ((req.onSocket registry socket).inWorkspace w))

/-! ## The launches of a pass -/

/-- Whether the label ends a launch. -/
def Label.endsLaunch : Label → Bool
  | .dispatch _ (.registered ..) | .dispatch _ (.failed ..) | .dispatch _ (.abandoned _) => true
  | _ => false

/-- The daemon with the launches that have read their column. -/
structure Launcher where
  world : World
  opened : List ((Run × Card) × Column)
  /-- The runs claimed by the last pass, and the cards deleted since. -/
  claimed : List (Run × Card)
  deleted : List Int

inductive LaunchStep where
  /-- A step that ends no launch. -/
  | other (l : Label)
  | readColumn (env : Env) (claimed : Run × Card)
  | spawn (env : Env) (a : Answers) (claimed : Run × Card) (column : Column)

def Launcher.start (db : Db) : Launcher :=
  { world := .start db, opened := [], claimed := [], deleted := [] }

variable (cfg : Config) (socketPath : String)

/-- What is remembered of the last pass after a step. -/
def Launcher.after (s : Launcher) (l : Label) : Launcher :=
  let world := s.world.next cfg l
  match l with
  | .dispatch _ .claim =>
      if s.world.pass.isSome then { s with world, claimed := world.launching, deleted := [] } else s
  | .request _ (.cardDelete id) => { s with world, deleted := id :: s.deleted }
  | .restart => .start s.world.daemon.db
  | _ => { s with world }

def Launcher.next (s : Launcher) : LaunchStep → Launcher
  | .other l => if l.endsLaunch then s else s.after cfg l
  | .readColumn env claimed =>
      if claimed ∈ s.world.launching then
        match requireColumn claimed.1.columnId s.world.daemon.db with
        | .ok column _ => { s with opened := (claimed, column) :: s.opened }
        | .error _ _ => { s with world := s.world.next cfg (.dispatch env (.abandoned claimed)) }
      else s
  | .spawn env a claimed column =>
      if (claimed, column) ∈ s.opened then
        { s with
          world := s.world.next cfg (.dispatch env (spawnOne socketPath a claimed column))
          opened := s.opened.erase (claimed, column) }
      else s

/-- The histories of the daemon in which `spawn_one` ends every launch. -/
def launches : System Launcher LaunchStep where
  init s := s = .start Db.fresh
  step s l s' := s' = s.next cfg socketPath l

end HerdrBoard.Daemon
