import HerdrBoard.Lib.Dialog
import HerdrBoard.Daemon.Launch
import HerdrBoard.Daemon.Reconcile
import Mathlib.Data.Rat.Defs

/-!
# What a spawn asks of Herdr

The requests of a launch, the local steps between them, and the errors that keep what Herdr refused.
-/

open Lib HerdrBoard.Core HerdrBoard.Daemon

namespace HerdrBoard.Spawner

/-! ## Herdr's objects -/

structure TabInfo where
  tabId : String
  workspaceId : String
  number : Nat
  label : String
  deriving DecidableEq

structure PaneInfo where
  paneId : String
  workspaceId : String
  tabId : String
  agent : Option String
  agentStatus : AgentStatus
  deriving DecidableEq

structure AgentSession where
  agent : String
  kind : String
  source : String
  value : String
  deriving DecidableEq

structure AgentInfo where
  paneId : String
  agentStatus : AgentStatus
  launchPending : Bool
  interactiveReady : Bool
  agentSession : Option AgentSession
  deriving DecidableEq

/-- The size of a rectangle in terminal cells. -/
structure Rect where
  width : Nat
  height : Nat
  deriving DecidableEq

structure LayoutPane where
  paneId : String
  rect : Rect
  deriving DecidableEq

inductive SplitDirection where
  | right
  | down
  deriving DecidableEq

structure TabCreated where
  tab : TabInfo
  rootPane : PaneInfo
  deriving DecidableEq

/-- The environment of a pane, by key. -/
abbrev PaneEnv := List (String × String)

/-! ## The parameters of requests -/

structure TabCreateParams where
  workspaceId : Option String
  cwd : Option String
  label : Option String
  env : PaneEnv
  focus : Bool

structure TabRenameParams where
  tabId : String
  label : String

structure PaneRenameParams where
  paneId : String
  label : String

structure PaneSplitParams where
  workspaceId : Option String
  targetPaneId : String
  cwd : Option String
  env : PaneEnv
  direction : SplitDirection
  /-- The fraction that the target keeps. -/
  ratio : Option ℚ
  focus : Bool

structure AgentStartParams where
  name : String
  kind : String
  paneId : String
  args : List String
  timeoutMs : Option Nat

structure AgentPromptParams where
  target : String
  text : String
  deriving DecidableEq

/-! ## Errors -/

/-- Without the detail that the operating system and the decoder add. -/
def herdrErrorText : HerdrError → String
  | .io => "herdr io error"
  | .protocol code message => s!"herdr protocol error [{code}]: {message}"
  | .decode => "herdr decode error"
  | .deadline operation => s!"herdr {operation} deadline exceeded"
  | .disconnected => "herdr connection closed"

/-- An error and what it was wrapped in. -/
inductive Failure where
  | herdr (e : HerdrError)
  /-- A pane or tab that disappeared where the whole placement can be restarted. -/
  | placementRace (e : HerdrError)
  | runnerRace (cause : Failure)
  | message (text : String)
  | context (text : String) (cause : Failure)

namespace Failure

/-- The whole chain, outermost first. -/
def text : Failure → String
  | .herdr e => herdrErrorText e
  | .placementRace e => herdrErrorText e
  | .runnerRace cause => cause.text
  | .message text => text
  | .context text cause => s!"{text}: {cause.text}"

end Failure

/-! ## The card-tab registry -/

structure CardTabKey where
  socket : String
  workspaceId : String
  label : String
  deriving DecidableEq

/-- The exact ids of a board-owned card tab and of its shell anchor. -/
structure OwnedCardTab where
  tabId : String
  anchorPaneId : String
  deriving DecidableEq

/-! ## The calls -/

/-- Everything a spawn waits for. A spawn holds the allocation lock of its card tab throughout. -/
inductive Call where
  | connect (socket : String)
  | requireSupportedProtocol
  | tabList (workspaceId : String)
  | paneList (workspaceId : String)
  | tabCreate (p : TabCreateParams)
  | tabRename (p : TabRenameParams)
  | paneRename (p : PaneRenameParams)
  | paneLayout (paneId : String)
  | paneSplit (p : PaneSplitParams)
  | paneClose (paneId : String)
  | agentStart (p : AgentStartParams)
  | agentGet (paneId : String)
  | agentPrompt (p : AgentPromptParams)
  /-- What the registry remembers, and remembering. -/
  | remembered (key : CardTabKey)
  | remember (key : CardTabKey) (owned : OwnedCardTab)
  /-- A temporary file with the system instructions; its path is answered. -/
  | writePromptFile (systemPrompt : String)
  | removePromptFile (path : String)
  /-- The start-up script of a configured harness; its path is answered. -/
  | writeScript (argv : List String)
  | removeScript (path : String)
  /-- `herdr pane run <pane> <script>`. -/
  | paneRun (socket paneId script : String)
  /-- How many checks of a deadline that starts now will find time left. -/
  | clock
  | sleep (ms : Nat)

@[reducible] def Answer : Call → Type
  | .connect _ => Except HerdrError Unit
  | .requireSupportedProtocol => Except HerdrError Unit
  | .tabList _ => Except HerdrError (List TabInfo)
  | .paneList _ => Except HerdrError (List PaneInfo)
  | .tabCreate _ => Except HerdrError TabCreated
  | .tabRename _ => Except HerdrError Unit
  | .paneRename _ => Except HerdrError Unit
  | .paneLayout _ => Except HerdrError (List LayoutPane)
  | .paneSplit _ => Except HerdrError PaneInfo
  | .paneClose _ => Except HerdrError Unit
  | .agentStart _ => Except HerdrError AgentInfo
  | .agentGet _ => Except HerdrError AgentInfo
  | .agentPrompt _ => Except HerdrError Unit
  | .remembered _ => Option OwnedCardTab
  | .remember _ _ => Unit
  | .writePromptFile _ => Except String String
  | .removePromptFile _ => Except String Unit
  | .writeScript _ => Except String String
  | .removeScript _ => Except String Unit
  | .paneRun _ _ _ => Except Failure Unit
  | .clock => Nat
  | .sleep _ => Unit

/-- A request with Herdr's own error. -/
abbrev Request := Dialog Call Answer HerdrError

/-- A part of a spawn. -/
abbrev Spawn := Dialog Call Answer Failure

/-- A local step that fails with a text. -/
abbrev LocalStep := Dialog Call Answer String

def Spawn.ofLocal {α : Type} (x : LocalStep α) : Spawn α := x.mapError .message

def Spawn.context {α : Type} (text : String) (x : Spawn α) : Spawn α := x.mapError (.context text)

namespace Client

def tabList (workspaceId : String) : Request (List TabInfo) := .query (.tabList workspaceId) id

def paneList (workspaceId : String) : Request (List PaneInfo) := .query (.paneList workspaceId) id

def tabCreate (p : TabCreateParams) : Request TabCreated := .query (.tabCreate p) id

def tabRename (p : TabRenameParams) : Request Unit := .query (.tabRename p) id

def paneRename (p : PaneRenameParams) : Request Unit := .query (.paneRename p) id

def paneLayout (paneId : String) : Request (List LayoutPane) := .query (.paneLayout paneId) id

def paneSplit (p : PaneSplitParams) : Request PaneInfo := .query (.paneSplit p) id

def paneClose (paneId : String) : Request Unit := .query (.paneClose paneId) id

def agentStart (p : AgentStartParams) : Request AgentInfo := .query (.agentStart p) id

def agentGet (paneId : String) : Request AgentInfo := .query (.agentGet paneId) id

def agentPrompt (p : AgentPromptParams) : Request Unit := .query (.agentPrompt p) id

end Client

/-! ## The retry taxonomy -/

def ERR_PANE_NOT_FOUND : String := "pane_not_found"
def ERR_EMPTY_TAB : String := "empty_tab"
def ERR_EMPTY_LAYOUT : String := "empty_layout"

/-- A typed refusal with this code. -/
def HasCode (code : String) : HerdrError → Bool
  | .protocol c _ => c == code
  | _ => false

def isPaneNotFound : HerdrError → Bool := HasCode ERR_PANE_NOT_FOUND

def isPlacementDisappearance (e : HerdrError) : Bool :=
  HasCode ERR_PANE_NOT_FOUND e || HasCode ERR_EMPTY_TAB e || HasCode ERR_EMPTY_LAYOUT e

def markRetryablePlacementRace (e : HerdrError) : Failure :=
  if isPlacementDisappearance e then .placementRace e else .herdr e

def isRetryablePlacementRace : Failure → Bool
  | .placementRace _ => true
  | .runnerRace _ => true
  | .context _ cause => isRetryablePlacementRace cause
  | _ => false

/-- Some error of the chain is Herdr's answer that the pane is gone. -/
def paneDisappeared : Failure → Bool
  | .herdr e => isPaneNotFound e
  | .placementRace e => isPaneNotFound e
  | .runnerRace cause => paneDisappeared cause
  | .context _ cause => paneDisappeared cause
  | .message _ => false

def markRetryableRunnerRace (error : Failure) : Failure :=
  if paneDisappeared error then .runnerRace error else error

/-! ## Closing panes -/

/-- `pane_not_found` means that the pane is closed already. -/
def closeOwnedForRetry (paneId : String) : Spawn Unit := do
  match ← (Client.paneClose paneId).attempt with
  | .ok () => pure ()
  | .error e =>
      if isPaneNotFound e then pure ()
      else .fail (.context s!"herdr pane.close board-owned pane {paneId}" (.herdr e))

/-- Close a pane because of an error, which also says so when the pane could not be closed. -/
def closeAfterError (what paneId : String) (error : Failure) : Spawn Failure := do
  match ← (Client.paneClose paneId).attempt with
  | .ok () => pure error
  | .error e =>
      if isPaneNotFound e then pure error
      else pure (.context s!"additionally failed to {what} {paneId}: {herdrErrorText e}" error)

def closeOwnedAfterError : String → Failure → Spawn Failure :=
  closeAfterError "close board-owned pane"

/-- Closing the root of a new tab removes the otherwise empty tab. -/
def cleanupNewCardTab : String → Failure → Spawn Failure :=
  closeAfterError "clean up newly created card-tab anchor"

end HerdrBoard.Spawner
