import HerdrBoard.Spawner.Prompting

/-!
# Whose pane it is

The panes that a launch may take for the board's own: those it created itself, the root of a
workspace that was created for it, and those that the exact ids of the board name. -/

open Lib Lib.Dialog HerdrBoard.Core HerdrBoard.Daemon

namespace HerdrBoard.Spawner

/-! ## What the log says -/

def createdPane : Exchange Answer → Option String
  | ⟨.tabCreate _, .ok created⟩ => some created.rootPane.paneId
  | ⟨.paneSplit _, .ok pane⟩ => some pane.paneId
  | _ => none

/-- The panes that the spawn has created. -/
def created (h : Log) : List String := h.filterMap createdPane

/-- A pane that is closed, or was before. -/
def closedPane : Exchange Answer → Option String
  | ⟨.paneClose paneId, .ok ()⟩ => some paneId
  | ⟨.paneClose paneId, .error e⟩ => if isPaneNotFound e then some paneId else none
  | _ => none

/-- The panes that are gone once the spawn has closed them. -/
def closed (h : Log) : List String := h.filterMap closedPane

/-- The last listing of the workspace's panes. -/
def listing : Log → List PaneInfo
  | [] => []
  | ⟨.paneList _, .ok panes⟩ :: _ => panes
  | _ :: past => listing past

/-- What the registry answered last. -/
def registered : Log → Option OwnedCardTab
  | [] => none
  | ⟨.remembered _, owned⟩ :: _ => owned
  | _ :: past => registered past

/-- The calls that replace what is known of the card's tab. -/
def Call.looks : Call → Bool
  | .paneList _ => true
  | .remembered _ => true
  | _ => false

/-! ## Board ownership -/

section Owning

variable (req : HerdrLaunchPlan) (workspaceId : String) (h : Log)

/-- The tab of the card: the one that the request names, else the one that the registry does. -/
def ownedTab : Option String := req.ownedTabId.or ((registered h).map OwnedCardTab.tabId)

/-- Listed last, in the card's own tab. -/
def InOwnedTab (pane : PaneInfo) : Prop :=
  pane ∈ listing h ∧ pane.workspaceId = workspaceId ∧ ownedTab req h = some pane.tabId

/-- The sole pane of the initial tab of the workspace that was created for this launch, and
without an agent. -/
def IsRoot (paneId : String) : Prop :=
  ∃ bootstrap root, req.bootstrap = some bootstrap ∧
    ((listing h).filter fun pane => pane.tabId == bootstrap.tabId && pane.workspaceId ==
      workspaceId) = [root] ∧
    root.paneId = bootstrap.rootPaneId ∧ root.agent = none ∧ root.paneId = paneId

/-- A shell of the card's tab with the exact id of a remembered or recorded anchor. -/
def IsAnchor (paneId : String) : Prop :=
  paneId ∉ req.durablePaneIds ∧
    ((registered h).map OwnedCardTab.anchorPaneId = some paneId ∨
      paneId ∈ req.durableAnchorPaneIds) ∧
    ∃ pane, InOwnedTab req workspaceId h pane ∧ pane.paneId = paneId ∧ pane.agent = none

/-- A pane of the card's tab with one of these exact ids, and not busy when it was listed. -/
def IsRun (ids : List String) (paneId : String) : Prop :=
  paneId ∈ ids ∧ ∃ pane, InOwnedTab req workspaceId h pane ∧ pane.paneId = paneId ∧
    AgentStatus.isBusy pane.agentStatus = false

/-- The pane of the run that this one continues, which still holds an agent of its kind. -/
def IsReuse (paneId : String) : Prop :=
  req.reusePaneId = some paneId ∧ req.agentKind.isSome ∧ ∃ pane, InOwnedTab req workspaceId h pane ∧
    pane.paneId = paneId ∧ pane.agent = req.agentKind ∧ pane.agentStatus ≠ .unknown

/-- A shell that may be split and closed as the anchor of the card's tab. -/
def IsShell (paneId : String) : Prop :=
  paneId ∈ created h ∨ IsRoot req workspaceId h paneId ∨ IsAnchor req workspaceId h paneId

/-- Where the run may be. -/
def IsPlace (paneId : String) : Prop := paneId ∈ created h ∨ IsReuse req workspaceId h paneId

variable (tabLabel : String)

/-- What each call may be made on. -/
def MayTouch : Call → Prop
  | .tabCreate p => p.workspaceId = some workspaceId ∧ p.label = some tabLabel
  | .tabRename p => p.label = tabLabel ∧ ∃ bootstrap, req.bootstrap = some bootstrap ∧
      p.tabId = bootstrap.tabId ∧ IsRoot req workspaceId h bootstrap.rootPaneId
  | .paneSplit p => p.workspaceId = some workspaceId ∧
      (IsShell req workspaceId h p.targetPaneId ∨
        IsRun req workspaceId h req.durablePaneIds p.targetPaneId)
  | .paneRename p => p.paneId ∈ created h ∨ IsRoot req workspaceId h p.paneId
  | .agentStart p => p.paneId ∈ created h
  | .paneRun _ paneId _ => paneId ∈ created h
  | .agentPrompt p => IsPlace req workspaceId h p.target
  | .paneClose paneId => IsPlace req workspaceId h paneId ∨ IsShell req workspaceId h paneId ∨
      IsRun req workspaceId h req.reclaimablePaneIds paneId
  | _ => True

end Owning

/-- A split answers with another pane than the one it divides, and a listing names no pane twice. -/
def keepsApart : Exchange Answer → Bool
  | ⟨.paneSplit p, .ok pane⟩ => pane.paneId != p.targetPaneId
  | ⟨.paneList _, .ok panes⟩ => decide (panes.map PaneInfo.paneId).Nodup
  | _ => true

/-- A placement in the tab of a card. -/
def touching (req : HerdrLaunchPlan) (workspaceId tabLabel : String) : Contract Answer where
  rely _ e := keepsApart e = true
  guard h c := MayTouch req workspaceId h tabLabel c

/-! ## Evidence lasts until the next look -/

/-- No look since. -/
def Since (h₀ h : Log) : Prop := listing h = listing h₀ ∧ registered h = registered h₀ ∧ h₀ <:+ h

variable {req : HerdrLaunchPlan} {workspaceId tabLabel paneId : String} {h₀ h h' : Log} {α : Type}

theorem Since.refl : Since h h := ⟨rfl, rfl, List.suffix_rfl⟩

theorem Since.trans (h₁ : Since h₀ h) (h₂ : Since h h') : Since h₀ h' :=
  ⟨h₂.1.trans h₁.1, h₂.2.1.trans h₁.2.1, h₁.2.2.trans h₂.2.2⟩

@[simp] theorem listing_paneList {p : String} {panes : List PaneInfo} :
    listing (⟨.paneList p, .ok panes⟩ :: h) = panes := rfl

@[simp] theorem registered_paneList {p : String} {a : Answer (.paneList p)} :
    registered (⟨.paneList p, a⟩ :: h) = registered h := rfl

@[simp] theorem registered_remembered {key : CardTabKey} {owned : Option OwnedCardTab} :
    registered (⟨.remembered key, owned⟩ :: h) = owned := rfl

theorem listing_cons {c : Call} {a : Answer c} (hlook : c.looks = false) :
    listing (⟨c, a⟩ :: h) = listing h := by
  cases c <;> first | rfl | cases hlook

theorem registered_cons {c : Call} {a : Answer c} (hlook : c.looks = false) :
    registered (⟨c, a⟩ :: h) = registered h := by
  cases c <;> first | rfl | cases hlook

theorem Since.cons {c : Call} {a : Answer c} (hsince : Since h₀ h) (hlook : c.looks = false) :
    Since h₀ (⟨c, a⟩ :: h) :=
  ⟨(listing_cons hlook).trans hsince.1, (registered_cons hlook).trans hsince.2.1,
    hsince.2.2.trans (List.suffix_cons _ _)⟩

theorem closedPane_eq_some {e : Exchange Answer} (he : closedPane e = some paneId) :
    e.1 = .paneClose paneId := by
  obtain ⟨c, a⟩ := e
  cases c with
  | paneClose id =>
      cases a with
      | ok => simpa [closedPane] using he
      | error e => simpa [closedPane] using (Option.ite_none_right_eq_some.mp he).2
  | _ => cases he

/-- The call that closed the pane. -/
theorem exists_paneClose (hclosed : paneId ∈ closed h) :
    ∃ past a, ⟨.paneClose paneId, a⟩ :: past <:+ h := by
  obtain ⟨⟨c, a⟩, he, hpane⟩ := List.mem_filterMap.mp hclosed
  obtain ⟨later, past, rfl⟩ := List.mem_iff_append.mp he
  obtain rfl : c = .paneClose paneId := closedPane_eq_some hpane
  exact ⟨past, a, List.suffix_append _ _⟩

theorem created_suffix (hle : h₀ <:+ h) (hcreated : paneId ∈ created h₀) : paneId ∈ created h :=
  (hle.sublist.filterMap createdPane).subset hcreated

theorem Since.created (hsince : Since h₀ h) (hcreated : paneId ∈ created h₀) : paneId ∈ created h :=
  created_suffix hsince.2.2 hcreated

theorem Since.inOwnedTab {pane : PaneInfo} (hsince : Since h₀ h) :
    InOwnedTab req workspaceId h pane ↔ InOwnedTab req workspaceId h₀ pane := by
  simp only [InOwnedTab, ownedTab, hsince.1, hsince.2.1]

theorem Since.root (hsince : Since h₀ h) :
    IsRoot req workspaceId h paneId ↔ IsRoot req workspaceId h₀ paneId := by
  simp only [IsRoot, hsince.1]

theorem Since.anchor (hsince : Since h₀ h) :
    IsAnchor req workspaceId h paneId ↔ IsAnchor req workspaceId h₀ paneId := by
  simp only [IsAnchor, hsince.inOwnedTab, hsince.2.1]

theorem Since.run {ids : List String} (hsince : Since h₀ h) :
    IsRun req workspaceId h ids paneId ↔ IsRun req workspaceId h₀ ids paneId := by
  simp only [IsRun, hsince.inOwnedTab]

theorem Since.reuse (hsince : Since h₀ h) :
    IsReuse req workspaceId h paneId ↔ IsReuse req workspaceId h₀ paneId := by
  simp only [IsReuse, hsince.inOwnedTab]

theorem Since.shell (hsince : Since h₀ h) (hshell : IsShell req workspaceId h₀ paneId) :
    IsShell req workspaceId h paneId :=
  hshell.imp hsince.created (Or.imp hsince.root.mpr hsince.anchor.mpr)

theorem Since.place (hsince : Since h₀ h) (hplace : IsPlace req workspaceId h₀ paneId) :
    IsPlace req workspaceId h paneId :=
  hplace.imp hsince.created hsince.reuse.mpr

/-- A call that was allowed stays so. -/
theorem Since.mayTouch {c : Call} (hsince : Since h₀ h)
    (hmay : MayTouch req workspaceId h₀ tabLabel c) :
    MayTouch req workspaceId h tabLabel c := by
  cases c with
  | tabRename p =>
      obtain ⟨hlabel, bootstrap, hhint, htab, hroot⟩ := hmay
      exact ⟨hlabel, bootstrap, hhint, htab, hsince.root.mpr hroot⟩
  | paneSplit p => exact ⟨hmay.1, hmay.2.imp hsince.shell hsince.run.mpr⟩
  | paneRename p => exact hmay.imp hsince.created hsince.root.mpr
  | agentStart p => exact hsince.created hmay
  | paneRun socket paneId script => exact hsince.created hmay
  | agentPrompt p => exact hsince.place hmay
  | paneClose paneId => exact hmay.imp hsince.place (Or.imp hsince.shell hsince.run.mpr)
  | _ => exact hmay

/-- Allowed, and no look. -/
def Tends (req : HerdrLaunchPlan) (workspaceId tabLabel : String) (h₀ : Log) (c : Call) : Prop :=
  c.looks = false ∧ MayTouch req workspaceId h₀ tabLabel c

/-- Calls that are allowed now may be made in any order and number. -/
theorem Only.since {x : Spawn α} (hx : x.Only (Tends req workspaceId tabLabel h)) :
    x.Meets (touching req workspaceId tabLabel) (fun _ => Since h) h :=
  hx.meets (fun _ _ htends hsince => hsince.mayTouch htends.2)
    (fun _ _ _ htends _ hsince => hsince.cons htends.1) Since.refl

end HerdrBoard.Spawner
