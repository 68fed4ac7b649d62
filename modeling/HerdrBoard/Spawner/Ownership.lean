import HerdrBoard.Lifecycle.Theorems
import HerdrBoard.Spawner.Prompting
import Mathlib.Data.List.Sort

/-!
# What a card's tab is proved from

Board ownership of a tab and of its panes rests on the exact ids that the card's own runs recorded,
and no pane of an open run is among those that a launch may close. -/

open Lib HerdrBoard.Core HerdrBoard.Daemon HerdrBoard.Lifecycle

namespace HerdrBoard.Spawner

/-! ## Recorded panes -/

/-- Which persisted pane identity to collect from a card's runs. -/
inductive OwnedPanes where
  | durableChildren
  | reclaimableChildren
  | anchors
  deriving DecidableEq

namespace OwnedPanes

variable (selector : OwnedPanes) (session : Option String) (workspaceId : String) (run : Run)

/-- Durable rows of the session and workspace; ended ones where panes may be closed. -/
def selects : Bool :=
  run.launchSpec.isSome && run.session == session && run.herdrWorkspaceId == some workspaceId &&
    (selector != .reclaimableChildren || run.endedAt.isSome)

def pane : Option String :=
  match selector with
  | .anchors => run.herdrAnchorPaneId
  | .durableChildren => run.herdrPaneId
  | .reclaimableChildren => run.herdrPaneId

/-- The run with the pane it owns, unless that is empty. -/
def entry : Option (Int × String) :=
  ((selector.pane run).filter (· ≠ "")).map fun pane => (run.id, pane)

end OwnedPanes

/-- The exact persisted pane ids, newest run first. -/
def ownedPaneIds (runs : List Run) (session : Option String) (workspaceId : String)
    (selector : OwnedPanes) :
    List String :=
  let owned := (runs.filter (selector.selects session workspaceId)).filterMap selector.entry
  (owned.insertionSort fun a b => b.1 ≤ a.1).map Prod.snd

/-- The snapshot shows the pane in a tab of the workspace. -/
def isLive (workspaceId paneId : String) (pane : PaneInfo) : Bool :=
  pane.paneId == paneId && pane.workspaceId == workspaceId && pane.tabId != ""

/-- A matching pane is proof of ownership; tab labels alone are never used. -/
def reconstructOwnedTabId (panes : List PaneInfo) (workspaceId : String)
    (priorPaneIds : List String) :
    Option String :=
  priorPaneIds.findSome? fun paneId => (panes.find? (isLive workspaceId paneId)).map PaneInfo.tabId

/-- What a card's space resolved to. -/
structure ResolvedSpace where
  workspaceId : String
  cwd : String
  bootstrap : Option WorkspaceBootstrapHint

/-- The workspace of a launch, with what the card owns in it. Only a card tab that something proves
asks for the snapshot. -/
def resolveWorkspace (priorRuns : List Run) (run : Run) (session : Option String)
    (space : ResolvedSpace)
    (sessionSnapshot : Except String (List PaneInfo)) : Except String ResolvedWorkspace := do
  let durablePaneIds := ownedPaneIds priorRuns session space.workspaceId .durableChildren
  let reclaimablePaneIds := ownedPaneIds priorRuns session space.workspaceId .reclaimableChildren
  let durableAnchorPaneIds := ownedPaneIds priorRuns session space.workspaceId .anchors
  let ownershipProof := durableAnchorPaneIds ++ durablePaneIds
  let ownedTabId ←
    if run.launchSpec.isSome ∧ ownershipProof ≠ [] then
      (sessionSnapshot.mapError fun e => s!"herdr session.snapshot: {e}").map fun panes =>
        reconstructOwnedTabId panes space.workspaceId ownershipProof
    else pure none
  return { workspaceId := space.workspaceId, cwd := space.cwd,
           bootstrap := space.bootstrap, ownedTabId,
           durablePaneIds, reclaimablePaneIds, durableAnchorPaneIds,
           reusePaneId := reusePaneId priorRuns run session space.workspaceId }

/-! ## Newest run first -/

/-- A run that recorded a pane of the kind in the session and workspace. -/
def OwnedPanes.owns (selector : OwnedPanes) (session : Option String) (workspaceId : String)
    (run : Run) : Bool :=
  selector.selects session workspaceId run && (selector.pane run).any (· ≠ "")

/-- The ids are those of the runs that recorded one, each run once, the newest first. -/
structure ListsNewestFirst (runs : List Run) (session : Option String) (workspaceId : String)
    (selector : OwnedPanes) (owned : List Run) (ids : List String) : Prop where
  panes : ids.map some = owned.map selector.pane
  exact : owned.Perm (runs.filter (selector.owns session workspaceId))
  newest : owned.Pairwise fun a b => b.id ≤ a.id

variable {runs : List Run} {session : Option String} {workspaceId : String} {selector : OwnedPanes}

theorem entry_eq {run : Run} {e : Int × String} :
    selector.entry run = some e ↔ selector.pane run = some e.2 ∧ e.2 ≠ "" ∧ run.id = e.1 := by
  obtain ⟨id, pane⟩ := e
  simp only [OwnedPanes.entry, Option.map_eq_some_iff, Option.filter_eq_some_iff, Prod.mk.injEq]
  constructor
  · rintro ⟨p, ⟨hp, hne⟩, hid, rfl⟩
    exact ⟨hp, by simpa using hne, hid⟩
  · rintro ⟨hp, hne, hid⟩
    exact ⟨pane, ⟨hp, by simpa using hne⟩, hid, rfl⟩

def OwnedPanes.recorded (selector : OwnedPanes) (run : Run) : Int × String :=
  (run.id, (selector.pane run).getD "")

theorem filterMap_entry (runs : List Run) :
    (runs.filter (selector.selects session workspaceId)).filterMap selector.entry =
      (runs.filter (selector.owns session workspaceId)).map selector.recorded := by
  induction runs with
  | nil => rfl
  | cons run runs ih =>
      by_cases hsel : selector.selects session workspaceId run = true
      · rw [List.filter_cons_of_pos hsel]
        cases hpane : selector.pane run with
        | none =>
            have howns : ¬selector.owns session workspaceId run = true := by
              simp [OwnedPanes.owns, hpane]
            rw [List.filter_cons_of_neg howns,
              List.filterMap_cons_none (by simp [OwnedPanes.entry, hpane]), ih]
        | some pane =>
            by_cases hne : pane = ""
            · have howns : ¬selector.owns session workspaceId run = true := by
                simp [OwnedPanes.owns, hpane, hne]
              rw [List.filter_cons_of_neg howns,
                List.filterMap_cons_none (by simp [OwnedPanes.entry, hpane, hne]), ih]
            · have howns : selector.owns session workspaceId run = true := by
                simp [OwnedPanes.owns, hsel, hpane, hne]
              rw [List.filter_cons_of_pos howns,
                List.filterMap_cons_some (b := selector.recorded run)
                (entry_eq.mpr (by simp [OwnedPanes.recorded, hpane, hne])), List.map_cons, ih]
      · have howns : ¬selector.owns session workspaceId run = true := by
          simp [OwnedPanes.owns, hsel]
        rw [List.filter_cons_of_neg hsel, List.filter_cons_of_neg howns, ih]

theorem ownedPaneIds_listed (runs : List Run) :
    ∃ owned, ListsNewestFirst runs session workspaceId selector owned
      (ownedPaneIds runs session workspaceId selector) := by
  let newer : Run → Run → Prop := fun a b => b.id ≤ a.id
  have : Std.Total newer := ⟨fun a b => le_total b.id a.id⟩
  have : IsTrans Run newer := ⟨fun _ _ _ hab hbc => le_trans hbc hab⟩
  let owned := (runs.filter (selector.owns session workspaceId)).insertionSort newer
  have hperm : owned.Perm (runs.filter (selector.owns session workspaceId)) :=
    List.perm_insertionSort _ _
  have hids : ownedPaneIds runs session workspaceId selector = owned.map fun run =>
      (selector.pane run).getD "" := by
    rw [ownedPaneIds, filterMap_entry,
      ← List.map_insertionSort newer _ selector.recorded _ fun _ _ _ _ => Iff.rfl,
      List.map_map]
    rfl
  refine ⟨owned, ?_, hperm, List.pairwise_insertionSort newer _⟩
  rw [hids, List.map_map]
  refine List.map_congr_left fun run hrun => ?_
  obtain ⟨-, howns⟩ := List.mem_filter.mp (hperm.mem_iff.mp hrun)
  cases hpane : selector.pane run with
  | none => simp [OwnedPanes.owns, hpane] at howns
  | some pane => simp [hpane]

/-! ## The tab of the newest live pane -/

/-- Live in the workspace, and none of the ids listed before its own is. -/
structure IsNewestLive (panes : List PaneInfo) (workspaceId : String) (ids : List String)
    (pane : PaneInfo) : Prop where
  live : isLive workspaceId pane.paneId pane = true
  newest : ∃ newer older, ids = newer ++ pane.paneId :: older ∧
    ∀ id ∈ newer, ∀ p ∈ panes, isLive workspaceId id p = false

variable {panes panes' : List PaneInfo} {ids : List String} {tab : String}

theorem paneId_of_live {id : String} {pane : PaneInfo} (h : isLive workspaceId id pane = true) :
    pane.paneId = id := by
  simp only [isLive, Bool.and_eq_true, beq_iff_eq] at h
  exact h.1.1

theorem reconstructed_newest (h : reconstructOwnedTabId panes workspaceId ids = some tab) :
    ∃ pane ∈ panes, IsNewestLive panes workspaceId ids pane ∧ pane.tabId = tab := by
  obtain ⟨newer, id, older, rfl, hfound, hnewer⟩ := List.findSome?_eq_some_iff.mp h
  obtain ⟨pane, hpane, rfl⟩ := Option.map_eq_some_iff.mp hfound
  have hlive := List.find?_some hpane
  obtain rfl := paneId_of_live hlive
  refine ⟨pane, List.mem_of_find?_eq_some hpane,
    ⟨hlive, newer, older, rfl, fun id hid p hp => ?_⟩, rfl⟩
  exact Bool.eq_false_iff.mpr
    (List.find?_eq_none.mp (Option.map_eq_none_iff.mp (hnewer id hid)) p hp)

theorem reconstructed_isSome : (reconstructOwnedTabId panes workspaceId ids).isSome = true ↔
    ∃ id ∈ ids, ∃ pane ∈ panes, isLive workspaceId id pane = true := by
  simp [reconstructOwnedTabId, List.findSome?_isSome_iff, List.find?_isSome]

/-- Two lists of the same panes show the same newest live pane. -/
theorem IsNewestLive.unique {pane pane' : PaneInfo} (h : IsNewestLive panes workspaceId ids pane)
    (h' : IsNewestLive panes' workspaceId ids pane') (hpane : pane ∈ panes')
    (hpane' : pane' ∈ panes) : pane.paneId = pane'.paneId := by
  obtain ⟨newer, older, hids, hnewer⟩ := h.newest
  obtain ⟨newer', older', hids', hnewer'⟩ := h'.newest
  rcases List.append_eq_append_iff.mp (hids.symm.trans hids') with
      ⟨rest, rfl, hrest⟩ | ⟨rest, rfl, hrest⟩
  · cases rest with
    | nil => exact (List.cons.inj hrest).1
    | cons id rest =>
        obtain ⟨rfl, -⟩ := List.cons.inj hrest
        exact absurd h.live (Bool.eq_false_iff.mp (hnewer' pane.paneId (by simp) pane hpane))
  · cases rest with
    | nil => exact (List.cons.inj hrest).1.symm
    | cons id rest =>
        obtain ⟨rfl, -⟩ := List.cons.inj hrest
        exact absurd h'.live (Bool.eq_false_iff.mp (hnewer pane'.paneId (by simp) pane' hpane'))

/-- The order of the snapshot does not matter: a pane has one entry in it. -/
theorem reconstructed_of_perm (hperm : panes.Perm panes')
    (hids : (panes.map PaneInfo.paneId).Nodup) :
    reconstructOwnedTabId panes workspaceId ids = reconstructOwnedTabId panes' workspaceId ids := by
  have hsome : (reconstructOwnedTabId panes workspaceId ids).isSome = true ↔
      (reconstructOwnedTabId panes' workspaceId ids).isSome = true := by
    simp [reconstructed_isSome, hperm.mem_iff]
  cases htab : reconstructOwnedTabId panes workspaceId ids with
  | none =>
      cases htab' : reconstructOwnedTabId panes' workspaceId ids with
      | none => rfl
      | some tab' => simp [htab, htab'] at hsome
  | some tab =>
      cases htab' : reconstructOwnedTabId panes' workspaceId ids with
      | none => simp [htab, htab'] at hsome
      | some tab' =>
          obtain ⟨pane, hpane, hnewest, rfl⟩ := reconstructed_newest htab
          obtain ⟨pane', hpane', hnewest', rfl⟩ := reconstructed_newest htab'
          have hmem := hperm.mem_iff.mpr hpane'
          rw [List.inj_on_of_nodup_map hids hpane hmem
            (hnewest.unique hnewest' (hperm.mem_iff.mp hpane) hmem)]

/-! ## Panes in use -/

/-- A run that was not started has no pane. -/
def Unplaced (r : Run) : Prop :=
  r.startedAt = none → r.herdrPaneId = none ∧ r.herdrAnchorPaneId = none

theorem RunEvolves.unplaced {e : Event} {r r' : Run} (h : RunEvolves e r r') (hr : Unplaced r) :
    Unplaced r' := by
  cases h with
  | same => exact hr
  | promote _ a hqueued => exact fun hstarted => by cases hstarted
  | signal _ deadline paused hactive => exact hr
  | finish _ now outcome summary hopen => exact hr
  | hop _ next now outcome summary hopen => exact hr

theorem Inserts.unplaced {l : Life} {e : Event} {r : Run} (h : Inserts l e r) : Unplaced r := by
  cases h with
  | enqueue cardId p hclosed => exact fun _ => ⟨rfl, rfl⟩
  | hop run p hrun hopen => exact fun _ => ⟨rfl, rfl⟩

theorem Via.unplaced {E : Event → Prop} {db db' : Db} (h : Via E db db')
    (hdb : ∀ r ∈ db.runs, Unplaced r) : ∀ r ∈ db'.runs, Unplaced r := by
  refine h.preserves (I := fun l => ∀ r ∈ l.runs, Unplaced r) ?_ hdb
  intro l e l' hl _ hstep r' hr'
  rcases Step.run_back hstep hr' with ⟨r, hr, hev⟩ | hnew
  · exact RunEvolves.unplaced hev (hl r hr)
  · exact Inserts.unplaced hnew

variable {cfg : Config} {w : Daemon.World}

theorem unplaced_of_reachable (h : (boardd cfg).Reachable w) :
    ∀ r ∈ w.daemon.db.runs, Unplaced r := by
  refine (h.invariant (I := fun w => Inv (life w.daemon.db.toTables) ∧
    ∀ r ∈ w.daemon.db.runs, Unplaced r) ?_ ?_).2
  · rintro w rfl
    exact ⟨inv_fresh, fun r hr => by cases hr⟩
  · rintro w l _ ⟨hinv, hall⟩ - rfl
    have hvia := via_step_daemon cfg hinv l
    exact ⟨hvia.inv hinv, Via.unplaced hvia hall⟩

/-- The pane or the anchor of an open run of the card. -/
def InUse (db : Db) (cardId : Int) (pane : String) : Prop :=
  ∃ r ∈ db.runs, r.cardId = cardId ∧ r.endedAt = none ∧
    (r.herdrPaneId = some pane ∨ r.herdrAnchorPaneId = some pane)

/-- A queued run of the card is its only open one. -/
theorem not_inUse_of_queued (h : (boardd cfg).Reachable w) {row : Run}
    (hrow : row ∈ w.daemon.db.runs)
    (hqueued : row.isQueued = true) (pane : String) : ¬InUse w.daemon.db row.cardId pane := by
  rintro ⟨r, hr, hcard, hended, hpane⟩
  obtain rfl := Db.open_run_unique hr hrow hcard (isOpen_iff.mpr hended)
    (isOpen_of_isQueued hqueued)
  have hstarted : r.startedAt = none := by
    simp only [Run.isQueued, Bool.and_eq_true, Option.isNone_iff_eq_none] at hqueued
    exact hqueued.1
  obtain ⟨hnone, hanchor⟩ := unplaced_of_reachable h r hr hstarted
  simp [hnone, hanchor] at hpane

/-- No launch of a queued run closes a pane that an open run of its card uses. -/
theorem ownership_by_durable_identity :
    -- the recorded ids, the newest run first
    (∀ runs session workspaceId selector, ∃ owned,
      ListsNewestFirst runs session workspaceId selector owned
        (ownedPaneIds runs session workspaceId selector)) ∧
    -- the tab of the newest live pane, in whatever order the snapshot lists panes
    (∀ panes workspaceId ids,
      ((reconstructOwnedTabId panes workspaceId ids).isSome = true ↔
        ∃ id ∈ ids, ∃ pane ∈ panes, isLive workspaceId id pane = true) ∧
      (∀ tab, reconstructOwnedTabId panes workspaceId ids = some tab →
        ∃ pane ∈ panes, IsNewestLive panes workspaceId ids pane ∧ pane.tabId = tab) ∧
      ∀ panes', panes.Perm panes' → (panes.map PaneInfo.paneId).Nodup →
        reconstructOwnedTabId panes workspaceId ids = reconstructOwnedTabId panes'
          workspaceId ids) ∧
    -- the launch of a queued run
    ∀ cfg w, (boardd cfg).Reachable w → ∀ claimed : Run × Card,
      (∃ row ∈ w.daemon.db.runs, row.id = claimed.1.id ∧ row.cardId = claimed.2.id ∧
      row.isQueued = true) → ∀ space sessionSnapshot resolved,
        resolveWorkspace (priorRuns w.daemon.db claimed.1 claimed.2) claimed.1
          (launchSession claimed.1 claimed.2) space sessionSnapshot = .ok resolved →
        (∀ pane ∈ resolved.reclaimablePaneIds, ¬InUse w.daemon.db claimed.2.id pane) ∧
        ∀ req remembered panes guarded protect,
          (reclaimPriorChildren panes guarded
            (ownership (HerdrLaunchPlan.inWorkspace req resolved) remembered).reclaimablePaneIds
            protect).Only fun call => ∀ pane, call = .paneClose pane →
              ¬InUse w.daemon.db claimed.2.id pane := by
  refine ⟨fun runs _ _ _ => ownedPaneIds_listed runs, fun panes workspaceId ids => ?_, ?_⟩
  · exact ⟨reconstructed_isSome, fun _ => reconstructed_newest, fun _ => reconstructed_of_perm⟩
  · rintro cfg w h claimed ⟨row, hrow, -, hcard, hqueued⟩ space sessionSnapshot resolved -
    have hfree (pane : String) : ¬InUse w.daemon.db claimed.2.id pane :=
      hcard ▸ not_inUse_of_queued h hrow hqueued pane
    refine ⟨fun pane _ => hfree pane, fun req remembered panes guarded protect => ?_⟩
    exact reclaimPriorChildren_only fun paneId _ pane _ => hfree pane

/-- The card's first run is claimed. -/
def claimedOnce : Daemon.World :=
  oneQueuedCard.run oneAtATime [.dispatch permissiveEnv .readActive, .dispatch permissiveEnv .claim]

/-- What the first launch of the card returns. -/
def firstHandle : RuntimeHandle :=
  { paneId := some "p1", workspaceId := some "w1", anchorPaneId := some "a1",
    pid := none, herdrSocket := none, capturedSessionId := none }

/-- The first run was started on a pane and is done; the card is queued again. -/
def relaunched : Daemon.World :=
  match claimedOnce.launching, claimedOnce.daemon.db.column? 2 with
  | claimed :: _, some column =>
      claimedOnce.run oneAtATime
        [ .dispatch permissiveEnv (.registered claimed column firstHandle),
          .watch permissiveEnv (.finalizeRun 1 .ok none none false false),
          .request permissiveEnv (.runRetryEnqueue 1 2) ]
  | _, _ => claimedOnce

theorem reachable_relaunched : (boardd oneAtATime).Reachable relaunched := by
  have hclaimed : (boardd oneAtATime).Reachable claimedOnce :=
    reachable_run reachable_oneQueuedCard _
  unfold relaunched
  split
  · exact reachable_run hclaimed _
  · exact hclaimed

/-- The reclaimable pane ids of the second launch. -/
def reclaimableAgain (db : Db) : Option (List String) := do
  let run ← db.run? 2
  let card ← db.card? 1
  let resolved ← (resolveWorkspace (priorRuns db run card) run (launchSession run card)
    { workspaceId := "w1", cwd := "/w", bootstrap := none } (.ok [])).toOption
  if run.isQueued ∧ run.cardId = 1 then some resolved.reclaimablePaneIds else none

/-- The pane of the first run may be closed by the second launch: no open run uses it. -/
theorem ownership_by_durable_identity_relaunched :
    reclaimableAgain relaunched.daemon.db = some ["p1"] ∧ ¬InUse relaunched.daemon.db 1 "p1" := by
  have hagain : reclaimableAgain relaunched.daemon.db = some ["p1"] := by decide +kernel
  refine ⟨hagain, ?_⟩
  simp only [reclaimableAgain, Option.bind_eq_bind, Option.bind_eq_some_iff,
    Option.ite_none_right_eq_some] at hagain
  obtain ⟨run, hrun, card, hcard, resolved, hresolved, ⟨hqueued, hof⟩, hids⟩ := hagain
  have hid : card.id = 1 := Table.key_of_find? hcard
  have hok : resolveWorkspace (priorRuns relaunched.daemon.db run card) run (launchSession run card)
      { workspaceId := "w1", cwd := "/w", bootstrap := none } (.ok []) = .ok resolved := by
    cases hr : resolveWorkspace (priorRuns relaunched.daemon.db run card) run
        (launchSession run card)
        { workspaceId := "w1", cwd := "/w", bootstrap := none } (.ok []) with
    | error e => simp [hr, Except.toOption] at hresolved
    | ok r => simpa [hr, Except.toOption] using hresolved
  have hlaunch := ownership_by_durable_identity.2.2 oneAtATime relaunched
    reachable_relaunched (run, card)
    ⟨run, Table.mem_of_find? hrun, rfl, hof.trans hid.symm, hqueued⟩ _ _ resolved hok
  have hmem : "p1" ∈ resolved.reclaimablePaneIds := by
    rw [Option.some.inj hids]
    exact List.mem_singleton_self _
  exact hid ▸ hlaunch.1 "p1" hmem

end HerdrBoard.Spawner
