import HerdrBoard.Spawner.Geometry

/-!
# Placing a run pane

The card's tab is chosen or created, its shell anchor is kept, and the run child is split
from the anchor. -/

open Lib HerdrBoard.Core HerdrBoard.Daemon

namespace HerdrBoard.Spawner

structure CardOwnership where
  ownedTabId : Option String
  bootstrap : Option WorkspaceBootstrapHint
  durablePaneIds : List String
  reclaimablePaneIds : List String
  durableAnchorPaneIds : List String
  rememberedAnchorId : Option String
  reusePaneId : Option String
  reuseAgentKind : Option String

structure OwnedPane where
  paneId : String
  workspaceId : String
  tabId : String
  anchorPaneId : Option String

def isCardTab (label : String) : Bool := label.startsWith "card-"

def anchorLabel (tabLabel : String) : String := s!"{tabLabel}-anchor"

/-- A shell that outlives its runs gets only the identity of the card. -/
def anchorEnv (env : PaneEnv) : PaneEnv := env.filter fun pair => pair.1 == "BOARD_CARD_ID"

/-- Where a split pane says it is, else where it was asked to be. -/
def PaneInfo.workspaceOr (pane : PaneInfo) (workspaceId : String) : String :=
  if pane.workspaceId = "" then workspaceId else pane.workspaceId

def marked {α : Type} (x : Request α) : Spawn α := x.mapError markRetryablePlacementRace

def unmarked {α : Type} (x : Request α) : Spawn α := x.mapError .herdr

/-! ## Splitting -/

def splitParams (workspaceId targetPaneId : String) (cwd : Option String) (env : PaneEnv)
    (direction : SplitDirection) (ratio : Option ℚ) : PaneSplitParams :=
  { workspaceId := some workspaceId, targetPaneId, cwd, env, direction, ratio, focus := false }

def splitRunChild (workspaceId tabId anchorId : String) (cwd : Option String) (env : PaneEnv) :
    Spawn OwnedPane := do
  let layout ← marked (Client.paneLayout anchorId)
  let (direction, ratio) ← .ofExcept (splitGeometry layout anchorId)
  let child ← marked (Client.paneSplit
      (splitParams workspaceId anchorId cwd env direction (some ratio)))
  return { paneId := child.paneId,
           workspaceId := child.workspaceOr workspaceId, tabId, anchorPaneId := some anchorId }

/-- A failed step on a new tab closes its root first: nothing else knows it yet. -/
def orCleanUp {α : Type} (anchorId : String) (x : Spawn α) : Spawn α := do
  match ← x.attempt with
  | .ok a => pure a
  | .error error => .fail (← cleanupNewCardTab anchorId error)

def tabParams (workspaceId label : String) (cwd : Option String) (env : PaneEnv) :
    TabCreateParams :=
  { workspaceId := some workspaceId, cwd, label := some label, env, focus := false }

def createCardTab (workspaceId tabLabel : String) (cwd : Option String) (env : PaneEnv) :
    Spawn OwnedPane := do
  let created ← unmarked (Client.tabCreate (tabParams workspaceId tabLabel cwd (anchorEnv env)))
  let anchorId := created.rootPane.paneId
  orCleanUp anchorId (Spawn.context "labeling new card-tab anchor"
    (marked (Client.paneRename { paneId := anchorId, label := anchorLabel tabLabel })))
  let layout ← orCleanUp anchorId (marked (Client.paneLayout anchorId))
  let (direction, ratio) ← orCleanUp anchorId (.ofExcept (initialSplitGeometry layout anchorId))
  let child ← orCleanUp anchorId
    (marked (Client.paneSplit (splitParams workspaceId anchorId cwd env direction (some ratio))))
  return { paneId := child.paneId, workspaceId := child.workspaceOr workspaceId,
           tabId := created.tab.tabId,
           anchorPaneId := some anchorId }

/-! ## A workspace this launch has created -/

/-- The exact root, if it is still the sole pane of its exact tab and carries no agent. -/
def soleShell (workspaceId : String) (bootstrap : WorkspaceBootstrapHint) (listed : List PaneInfo) :
    Option PaneInfo :=
  match listed.filter fun pane =>
    pane.tabId == bootstrap.tabId && pane.workspaceId == workspaceId with
  | [root] => if root.paneId = bootstrap.rootPaneId ∧ root.agent.isNone then some root else none
  | _ => none

def verifyBootstrap (workspaceId : String) (bootstrap : WorkspaceBootstrapHint) :
    Spawn (Option PaneInfo) := do
  let tabs ← unmarked (Client.tabList workspaceId)
  if tabs.any fun tab => tab.tabId == bootstrap.tabId && tab.workspaceId == workspaceId then
    return soleShell workspaceId bootstrap (← unmarked (Client.paneList workspaceId))
  else return none

/-- The initial tab becomes the card's tab, and its root the anchor. -/
def adoptRoot (workspaceId tabLabel : String) (bootstrap : WorkspaceBootstrapHint) (root : PaneInfo)
    (cwd : Option String) (env : PaneEnv) : Spawn OwnedPane := do
  Spawn.context "renaming the adopted workspace tab to the card tab"
    (marked (Client.tabRename { tabId := bootstrap.tabId, label := tabLabel }))
  Spawn.context "labeling the adopted workspace root as the card-tab anchor"
    (marked (Client.paneRename { paneId := root.paneId, label := anchorLabel tabLabel }))
  splitRunChild workspaceId bootstrap.tabId root.paneId cwd env

def adoptBootstrapTab (workspaceId tabLabel : String) (bootstrap : WorkspaceBootstrapHint)
    (cwd : Option String) (env : PaneEnv) : Spawn (Option OwnedPane) := do
  match ← verifyBootstrap workspaceId bootstrap with
  | some root => return some (← adoptRoot workspaceId tabLabel bootstrap root cwd env)
  | none => return none

/-! ## A tab of the card -/

def AgentStatus.isBusy : AgentStatus → Bool
  | .working => true
  | .blocked => true
  | _ => false

namespace CardOwnership

variable (own : CardOwnership) (workspaceId tabId : String)

def isDurableChild (pane : PaneInfo) : Bool := own.durablePaneIds.any fun id => id == pane.paneId

/-- Inside the exact tab, and still a shell. -/
def usableAnchor (pane : PaneInfo) : Bool :=
  pane.workspaceId == workspaceId && pane.tabId == tabId && pane.agent.isNone &&
    (pane.agentStatus == .unknown || pane.agentStatus == .idle) && !own.isDurableChild pane

/-- Anchors are known by their exact ids: the remembered one first, then the recorded ones. -/
def findAnchor (panes : List PaneInfo) : Option PaneInfo :=
  (own.rememberedAnchorId.toList ++ own.durableAnchorPaneIds).findSome? fun id =>
    panes.find? fun pane => pane.paneId == id && own.usableAnchor workspaceId tabId pane

/-- The pane of the prior run, which still holds its agent. -/
def canReuse (reuseId : String) (pane : PaneInfo) : Bool :=
  pane.paneId == reuseId && pane.workspaceId == workspaceId && pane.tabId == tabId &&
    own.reuseAgentKind.isSome && pane.agent == own.reuseAgentKind && pane.agentStatus != .unknown

def findReuse (panes : List PaneInfo) : Option PaneInfo :=
  own.reusePaneId.bind fun reuseId => panes.find? (own.canReuse workspaceId tabId reuseId)

/-- Only a recorded run pane authorizes touching a tab without an anchor. -/
def findRecovery (panes : List PaneInfo) : Option PaneInfo :=
  own.durablePaneIds.findSome? fun id =>
    panes.find? fun pane => pane.paneId == id && pane.workspaceId == workspaceId &&
      pane.tabId == tabId && !AgentStatus.isBusy pane.agentStatus

end CardOwnership

def reclaims (anchorId : String) (reclaimableIds : List String) (protect : Option String)
    (pane : PaneInfo) : Bool :=
  pane.paneId != anchorId && some pane.paneId != protect &&
    (reclaimableIds.any fun id => id == pane.paneId) && !AgentStatus.isBusy pane.agentStatus

def closeEach : List PaneInfo → Spawn Unit
  | [] => pure ()
  | pane :: rest => do
      Spawn.context s!"reclaiming prior board-owned child {pane.paneId}"
        (closeOwnedForRetry pane.paneId)
      closeEach rest

/-- Close the ended children of the card that are listed in its tab, but never a busy one. -/
def reclaimPriorChildren (panes : List PaneInfo) (anchorId : String) (reclaimableIds : List String)
    (protect : Option String) : Spawn Unit :=
  closeEach (panes.filter (reclaims anchorId reclaimableIds protect))

/-- Split a new anchor off a recorded run pane, then the run child off the anchor. -/
def recreateAnchor (workspaceId tabLabel : String) (cwd : Option String) (env : PaneEnv)
    (own : CardOwnership)
    (tabId : String) (panes : List PaneInfo) (recovery : PaneInfo) : Spawn OwnedPane := do
  let layout ← marked (Client.paneLayout recovery.paneId)
  let (direction, _) ← .ofExcept (splitGeometry layout recovery.paneId)
  let ratio ← .ofExcept (recoveryTargetRatio layout recovery.paneId direction)
  let anchor ← marked (Client.paneSplit
    (splitParams workspaceId recovery.paneId cwd (anchorEnv env) direction (some ratio)))
  Spawn.context "labeling recreated card-tab anchor"
    (marked (Client.paneRename { paneId := anchor.paneId, label := anchorLabel tabLabel }))
  reclaimPriorChildren panes anchor.paneId own.reclaimablePaneIds none
  splitRunChild workspaceId tabId anchor.paneId cwd env

/-- A run pane in the exact tab: the prior run's own pane, or a child of the anchor. -/
def allocateInTab (workspaceId tabLabel : String) (cwd : Option String) (env : PaneEnv)
    (own : CardOwnership) (tabId : String) : Spawn OwnedPane := do
  let panes := (← marked (Client.paneList workspaceId)).filter fun pane =>
    pane.tabId == tabId && pane.workspaceId == workspaceId
  let anchor := own.findAnchor workspaceId tabId panes
  match own.findReuse workspaceId tabId panes with
  | some reuse =>
      let guarded := (anchor.map PaneInfo.paneId).getD reuse.paneId
      reclaimPriorChildren panes guarded own.reclaimablePaneIds own.reusePaneId
      return { paneId := reuse.paneId, workspaceId, tabId,
               anchorPaneId := anchor.map PaneInfo.paneId }
  | none =>
      match anchor with
      | some anchor =>
          reclaimPriorChildren panes anchor.paneId own.reclaimablePaneIds none
          splitRunChild workspaceId tabId anchor.paneId cwd env
      | none =>
          match own.findRecovery workspaceId tabId panes with
          | some recovery => recreateAnchor workspaceId tabLabel cwd env own tabId panes recovery
          -- No usable board pane is left: the tab stays untouched.
          | none => createCardTab workspaceId tabLabel cwd env

/-- The tab that the hint of a created workspace names, if it verifies. -/
def adoptHinted (workspaceId tabLabel : String) (cwd : Option String) (env : PaneEnv) :
    Option WorkspaceBootstrapHint → Spawn (Option OwnedPane)
  | some bootstrap =>
      Spawn.context s!"adopting the created workspace's initial tab for '{tabLabel}'"
        (adoptBootstrapTab workspaceId tabLabel bootstrap cwd env)
  | none => pure none

def allocateCardPane (workspaceId tabLabel : String) (cwd : Option String) (env : PaneEnv)
    (own : CardOwnership) :
    Spawn OwnedPane := do
  let tabs ← unmarked (Client.tabList workspaceId)
  let exactTab := own.ownedTabId.bind fun tabId =>
    tabs.find? fun tab => tab.tabId == tabId && tab.workspaceId == workspaceId
  match ← adoptHinted workspaceId tabLabel cwd env own.bootstrap, exactTab with
  | some owned, _ => return owned
  | none, some tab => allocateInTab workspaceId tabLabel cwd env own tab.tabId
  | none, none => createCardTab workspaceId tabLabel cwd env

/-! ## A tab shared by label -/

/-- The last of the largest panes, divided to be roughly square. -/
def gridSlot (panes : List LayoutPane) : Option (String × SplitDirection) :=
  let area (pane : LayoutPane) := saturatingMul pane.rect.width pane.rect.height
  (panes.foldl (fun best pane => match best with
    | some best => if area best ≤ area pane then some pane else some best
    | none => some pane) none).map fun target =>
      (target.paneId, if saturatingMul 2 target.rect.height ≤ target.rect.width
        then .right else .down)

def gridSlotResult (panes : List LayoutPane) : Except HerdrError (String × SplitDirection) :=
  match gridSlot panes with
  | some slot => .ok slot
  | none => .error (.protocol ERR_EMPTY_LAYOUT "existing tab layout has no pane available to split")

/-- The first of the tabs with the lowest number. -/
def lowestTab : List TabInfo → Option TabInfo
  | [] => none
  | tab :: rest =>
      match lowestTab rest with
      | some best => if best.number < tab.number then some best else some tab
      | none => some tab

def allocateLegacyPane (workspaceId label : String) (cwd : Option String) (env : PaneEnv) :
    Spawn OwnedPane := do
  let tabs ← unmarked (Client.tabList workspaceId)
  match lowestTab (tabs.filter fun tab => tab.label == label) with
  | none =>
      let created ← unmarked (Client.tabCreate (tabParams workspaceId label cwd env))
      return { paneId := created.rootPane.paneId, workspaceId := created.tab.workspaceId,
               tabId := created.tab.tabId,
               anchorPaneId := none }
  | some tab =>
      let panes := (← marked (Client.paneList workspaceId)).filter fun pane =>
        pane.tabId == tab.tabId
      match panes with
      | [] =>
          .fail (markRetryablePlacementRace
            (.protocol ERR_EMPTY_TAB s!"existing tab {tab.tabId} has no pane available to split"))
      | anchor :: _ =>
          let layout ← marked (Client.paneLayout anchor.paneId)
          let (targetPaneId, direction) ← marked (.ofExcept (gridSlotResult layout))
          let pane ← marked (Client.paneSplit
              (splitParams workspaceId targetPaneId cwd env direction none))
          return { paneId := pane.paneId,
                   workspaceId := pane.workspaceOr workspaceId, tabId := tab.tabId,
                   anchorPaneId := none }

/-- Labels other than those of card tabs keep the historical shared tab. -/
def allocateOwnedPane (workspaceId label : String) (cwd : Option String) (env : PaneEnv)
    (own : CardOwnership) :
    Spawn OwnedPane :=
  if isCardTab label then allocateCardPane workspaceId label cwd env own
  else allocateLegacyPane workspaceId label cwd env

end HerdrBoard.Spawner
