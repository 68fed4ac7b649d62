import HerdrBoard.Spawner.Managed
import HerdrBoard.Spawner.Placement

/-!
# A spawn

The gate of the selected socket, at most two placement attempts, and the launch on the placed pane.
-/

open Lib HerdrBoard.Core HerdrBoard.Daemon

namespace HerdrBoard.Spawner

/-! ## Configured harnesses -/

/-- A failed run of the start-up script takes the script along. -/
def runScript (socket paneId path : String) : Spawn Unit := do
  match ← ((.query (.paneRun socket paneId path) id : Spawn Unit).mapError
    markRetryableRunnerRace).attempt with
  | .ok () => return ()
  | .error error =>
      let error : Failure := .context s!"herdr pane run {paneId}: {error.text}" error
      match ← (Spawn.context "removing configured-harness startup script after runner failure"
        (Spawn.ofLocal (.query (.removeScript path) id))).attempt with
      | .ok () => .fail error
      | .error removeError =>
          .fail (.context s!"additionally failed to remove startup script: {removeError.text}"
            error)

def launchConfigured (socket : String) (req : HerdrLaunchPlan) (paneId : String) : Spawn Unit :=
  if req.argv.isEmpty then .fail (.message "configured harness has empty argv")
  else do
    Spawn.context s!"herdr pane.rename {paneId}"
      (marked (Client.paneRename { paneId, label := req.name }))
    let path ← Spawn.ofLocal (.query (.writeScript req.argv) id)
    runScript socket paneId path

/-! ## The gate -/

def connectCheckedFor (socket purpose : String) : Spawn Unit := do
  (.query (.connect socket) id : Request Unit).mapError fun e =>
    .context s!"herdr unavailable: {herdrErrorText e}" (.herdr e)
  (.query .requireSupportedProtocol id : Request Unit).mapError fun e =>
    .context s!"checking Herdr protocol before {purpose}: {herdrErrorText e}" (.herdr e)

/-! ## The attempts -/

/-- A later pair of the same key goes before an earlier one. -/
def envInsert (key value : String) : PaneEnv → PaneEnv
  | [] => [(key, value)]
  | (k, v) :: rest =>
      if key < k then (key, value) :: (k, v) :: rest
      else if key = k then (key, value) :: rest
      else (k, v) :: envInsert key value rest

def envMap (pairs : List (String × String)) : PaneEnv :=
  pairs.foldl (fun env pair => envInsert pair.1 pair.2 env) []

/-- Where a spawn places its pane. -/
structure Site where
  socket : String
  workspaceId : String
  tabLabel : String

def Site.key (site : Site) : CardTabKey := ⟨site.socket, site.workspaceId, site.tabLabel⟩

def rememberCardTab (site : Site) (tabId anchorPaneId : String) : Spawn Unit :=
  Dialog.ask (A := Answer) (Call.remember site.key { tabId, anchorPaneId })

def ownership (req : HerdrLaunchPlan) (remembered : Option OwnedCardTab) : CardOwnership where
  ownedTabId := req.ownedTabId.or (remembered.map OwnedCardTab.tabId)
  bootstrap := req.bootstrap
  durablePaneIds := req.durablePaneIds
  reclaimablePaneIds := req.reclaimablePaneIds
  durableAnchorPaneIds := req.durableAnchorPaneIds
  rememberedAnchorId := remembered.map OwnedCardTab.anchorPaneId
  reusePaneId := req.reusePaneId
  reuseAgentKind := req.agentKind

def place (req : HerdrLaunchPlan) (site : Site) : Spawn OwnedPane := do
  let remembered ← .ask (.remembered site.key)
  Spawn.context s!"placing pane in tab '{site.tabLabel}' for {req.name}"
    (allocateOwnedPane site.workspaceId site.tabLabel req.cwd (envMap req.env)
      (ownership req remembered))

/-- Only an allocation that succeeded is remembered. -/
def rememberOwned (site : Site) (owned : OwnedPane) : Spawn Unit :=
  match isCardTab site.tabLabel, owned.anchorPaneId with
  | true, some anchor => rememberCardTab site owned.tabId anchor
  | _, _ => pure ()

def launch (req : HerdrLaunchPlan) (site : Site) (owned : OwnedPane) : Spawn (Option String) :=
  match req.agentKind with
  | some kind => launchManaged req kind owned.paneId (req.reusePaneId == some owned.paneId)
  | none => do
      launchConfigured site.socket req owned.paneId
      return none

/-- A tab with a managed agent keeps no shell beside it, unless its anchor cannot be closed. -/
def settleAnchor (req : HerdrLaunchPlan) (owned : OwnedPane) : Spawn (Option String) := do
  match req.agentKind, owned.anchorPaneId with
  | some _, some anchor =>
      match ← (closeOwnedForRetry anchor).attempt with
      | .ok () => return none
      | .error _ => return some anchor
  | _, anchor => return anchor

def launched (req : HerdrLaunchPlan) (owned : OwnedPane) (captured : Option String) :
    Spawn RuntimeHandle := do
  let anchorPaneId ← settleAnchor req owned
  return { paneId := some owned.paneId,
           workspaceId := some owned.workspaceId, anchorPaneId, pid := none,
           herdrSocket := req.herdrSocket, capturedSessionId := captured }

/-- The run pane is closed before the placement starts over. -/
def retryPlacement (owned : OwnedPane) (error : Failure) (again : Spawn RuntimeHandle) :
    Spawn RuntimeHandle := do
  match ← (closeOwnedForRetry owned.paneId).attempt with
  | .ok () => again
  | .error cleanupError =>
      .fail
        (.context
          (s!"additionally failed to clean up board-owned pane {owned.paneId} before placement retry: " ++
        cleanupError.text) error)

/-- One placement attempt; a race on the first goes on with `again`. -/
def spawnAttempt (req : HerdrLaunchPlan) (site : Site) (first : Bool)
    (again : Spawn RuntimeHandle) :
    Spawn RuntimeHandle := do
  match ← (place req site).attempt with
  | .error error => if first && isRetryablePlacementRace error then again else .fail error
  | .ok owned =>
      rememberOwned site owned
      match ← (launch req site owned).attempt with
      | .ok captured => launched req owned captured
      | .error error =>
          if first && isRetryablePlacementRace error then retryPlacement owned error again
          else .fail (← closeOwnedAfterError owned.paneId error)

def exhausted : Spawn RuntimeHandle :=
  .fail (.message "pane placement retry exhausted without a terminal result")

/-- A workspace that was just created is remembered before its tab is adopted. -/
def rememberBootstrap (req : HerdrLaunchPlan) (site : Site) : Spawn Unit :=
  match isCardTab site.tabLabel, req.bootstrap with
  | true, some bootstrap => rememberCardTab site bootstrap.tabId bootstrap.rootPaneId
  | _, _ => pure ()

def spawnAt (req : HerdrLaunchPlan) (site : Site) : Spawn RuntimeHandle := do
  rememberBootstrap req site
  spawnAttempt req site true (spawnAttempt req site false exhausted)

def spawnInner (defaultSocket : String) (req : HerdrLaunchPlan) : Spawn RuntimeHandle := do
  let socket := req.herdrSocket.getD defaultSocket
  connectCheckedFor socket "pane placement"
  match req.workspaceRef, req.tabLabel with
  | none, _ => .fail (.message "Herdr spawn requires workspace_ref for pane placement")
  | some _, none => .fail (.message "Herdr spawn requires tab_label for pane placement")
  | some workspaceId, some tabLabel => spawnAt req { socket, workspaceId, tabLabel }

/-! ## Every sequence of answers -/

/-- The calls and answers of a spawn, the latest first. -/
abbrev Log := History Answer

/-- How Herdr and the machine answer, given everything before. -/
abbrev World := (h : Log) → (c : Call) → Answer c

def spawnRun (defaultSocket : String) (req : HerdrLaunchPlan) (world : World) :
    Except Failure RuntimeHandle × Log :=
  (spawnInner defaultSocket req).answered world []

/-- All calls and answers of a spawn. -/
def spawnLog (defaultSocket : String) (req : HerdrLaunchPlan) (world : World) : Log :=
  (spawnRun defaultSocket req world).2

/-- What the registry holds for the card tab, which it held `initially` for before the spawn. -/
def lastRemembered (initially : Option OwnedCardTab) : Log → Option OwnedCardTab
  | [] => initially
  | ⟨.remember _ owned, _⟩ :: _ => some owned
  | _ :: past => lastRemembered initially past

end HerdrBoard.Spawner
