import HerdrBoard.Spawner.Touching

/-!
# What a launch leaves behind

Every pane that a launch creates is returned, closed again or remembered as an anchor, whatever
fails on the way. The exception is an anchor that replaces a lost one: nothing closes it while the
placement can still fail. -/

open Lib Lib.Dialog HerdrBoard.Core HerdrBoard.Daemon

namespace HerdrBoard.Spawner

/-! ## Who still knows a pane -/

section Accounts

variable (req : HerdrLaunchPlan) (h : Log) (paneId : String)

def CloseAsked : Prop := ∃ a, ⟨.paneClose paneId, a⟩ ∈ h

/-- The registry was told that the pane is the anchor of the card's tab. -/
def Remembered : Prop :=
  ∃ key tabId, (⟨.remember key ⟨tabId, paneId⟩, ()⟩ : Exchange Answer) ∈ h ∧
    req.workspaceRef = some key.workspaceId ∧ req.tabLabel = some key.label

/-- Split off a recorded run pane, to be the anchor that the tab has lost. -/
def IsReplacement : Prop :=
  ∃ p pane, ⟨.paneSplit p, .ok pane⟩ ∈ h ∧ p.targetPaneId ∈ req.durablePaneIds ∧
    pane.paneId = paneId

/-- Somebody knows every pane that was created, if only the computation that is going on. -/
def Accounted (kept : List String) : Prop :=
  ∀ paneId ∈ created h, paneId ∈ kept ∨ CloseAsked h paneId ∨ Remembered req h paneId ∨
    IsReplacement req h paneId

end Accounts

variable {req : HerdrLaunchPlan} {workspaceId tabLabel paneId anchorId : String} {h h' : Log}
  {kept kept' : List String} {e : Exchange Answer} {α : Type}

theorem CloseAsked.cons (hasked : CloseAsked h paneId) : CloseAsked (e :: h) paneId :=
  hasked.imp fun _ => List.mem_cons_of_mem e

theorem Remembered.cons (hremembered : Remembered req h paneId) :
    Remembered req (e :: h) paneId := by
  obtain ⟨key, tabId, hmem, hkey⟩ := hremembered
  exact ⟨key, tabId, List.mem_cons_of_mem e hmem, hkey⟩

theorem IsReplacement.cons (hreplacement : IsReplacement req h paneId) :
    IsReplacement req (e :: h) paneId := by
  obtain ⟨p, pane, hmem, hsplit⟩ := hreplacement
  exact ⟨p, pane, List.mem_cons_of_mem e hmem, hsplit⟩

theorem Accounted.mono (haccounted : Accounted req h kept) (hle : kept ⊆ kept') :
    Accounted req h kept' :=
  fun paneId hcreated => (haccounted paneId hcreated).imp_left (hle ·)

/-- One more exchange leaves at most the pane that it created to account for. -/
theorem Accounted.cons (haccounted : Accounted req h kept)
    (hnew : ∀ paneId, createdPane e = some paneId → paneId ∈ kept' ∨
    IsReplacement req (e :: h) paneId) (hle : kept ⊆ kept') : Accounted req (e :: h) kept' := by
  intro paneId hcreated
  rcases List.mem_filterMap.mp hcreated with ⟨e', hmem, hpane⟩
  rcases List.mem_cons.mp hmem with rfl | hmem
  · exact (hnew paneId hpane).imp_right (.inr ∘ .inr)
  · rcases haccounted paneId (List.mem_filterMap.mpr ⟨e', hmem, hpane⟩) with
        hkept | hasked | hremembered | hreplacement
    · exact .inl (hle hkept)
    · exact .inr (.inl hasked.cons)
    · exact .inr (.inr (.inl hremembered.cons))
    · exact .inr (.inr (.inr hreplacement.cons))

/-- A pane that somebody else knows is off the list. -/
theorem Accounted.drop (haccounted : Accounted req h (paneId :: kept))
    (hknown : CloseAsked h paneId ∨ Remembered req h paneId ∨ IsReplacement req h paneId) :
    Accounted req h kept := by
  intro id hcreated
  rcases haccounted id hcreated with hkept | hother
  · rcases List.mem_cons.mp hkept with rfl | hkept
    · exact .inr hknown
    · exact .inl hkept
  · exact .inr hother

theorem accounted_nil : Accounted req [] kept := nofun

/-! ## Calls that create nothing -/

/-- Nothing is assumed of Herdr. -/
def anything : Contract Answer where
  rely _ _ := True
  guard _ _ := True

def Call.creates : Call → Bool
  | .tabCreate _ => true
  | .paneSplit _ => true
  | _ => false

theorem createdPane_eq_none {c : Call} {a : Answer c} (hcreates : c.creates = false) :
    createdPane ⟨c, a⟩ = none := by
  cases c <;> first | rfl | cases hcreates

theorem Accounted.call {c : Call} {a : Answer c} (haccounted : Accounted req h kept)
    (hcreates : c.creates = false) : Accounted req (⟨c, a⟩ :: h) kept :=
  haccounted.cons (by simp [createdPane_eq_none hcreates]) (List.Subset.refl kept)

theorem Only.accounted {x : Spawn α} (hx : x.Only fun c => c.creates = false)
    (haccounted : Accounted req h kept) : x.Meets anything (fun _ h' => Accounted req h' kept) h :=
  hx.meets (fun _ _ _ _ => trivial)
    (fun _ _ _ hcreates _ haccounted => haccounted.call hcreates) haccounted

theorem closeAfterError_accounted {what : String} {error : Failure}
    (haccounted : Accounted req h (paneId :: kept)) :
    (closeAfterError what paneId error).Meets anything (fun _ h' => Accounted req h' kept) h := by
  refine meets_bind.mpr (meets_attempt.mpr (meets_query.mpr ⟨trivial, fun answer _ => ?_⟩))
  have hclosed : Accounted req (⟨.paneClose paneId, answer⟩ :: h) kept :=
    (haccounted.call rfl).drop (.inl ⟨answer, List.mem_cons_self⟩)
  cases answer with
  | ok => exact hclosed
  | error e =>
      simp only [id, after_ok]
      split <;> exact hclosed

theorem closeOwnedForRetry_accounted (haccounted : Accounted req h (paneId :: kept)) :
    (closeOwnedForRetry paneId).Meets anything (fun _ h' => Accounted req h' kept) h := by
  refine meets_bind.mpr (meets_attempt.mpr (meets_query.mpr ⟨trivial, fun answer _ => ?_⟩))
  have hclosed : Accounted req (⟨.paneClose paneId, answer⟩ :: h) kept :=
    (haccounted.call rfl).drop (.inl ⟨answer, List.mem_cons_self⟩)
  cases answer with
  | ok => exact hclosed
  | error e =>
      simp only [id, after_ok]
      split <;> exact hclosed

/-! ## Placing -/

/-- A success leaves more panes to account for, a failure those from before. -/
def Adds (req : HerdrLaunchPlan) (kept : List String) (panes : α → List String) :
    Except Failure α → Log → Prop
  | .ok a, h => Accounted req h (panes a)
  | .error _, h => Accounted req h kept

@[simp] theorem adds_ok {panes : α → List String} {a : α} :
    Adds req kept panes (.ok a) h ↔ Accounted req h (panes a) :=
  Iff.rfl

@[simp] theorem adds_error {panes : α → List String} {e : Failure} :
    Adds req kept panes (.error e) h ↔ Accounted req h kept := Iff.rfl

@[simp] theorem adds_mapError {panes : α → List String} {f : Failure → Failure}
    {r : Except Failure α} : Adds req kept panes (r.mapError f) h ↔ Adds req kept panes r h := by
  cases r <;> rfl

def OwnedPane.panes (owned : OwnedPane) : List String := owned.paneId :: owned.anchorPaneId.toList

/-- Calls that create nothing, and then the rest. -/
theorem Only.andThen {β : Type} {x : Spawn α} {f : α → Spawn β} {panes : β → List String}
    (hx : x.Only fun c => c.creates = false) (haccounted : Accounted req h [])
    (hf : ∀ a h', Accounted req h' [] → (f a).Meets anything (Adds req [] panes) h') :
    (x >>= f).Meets anything (Adds req [] panes) h :=
  (Only.accounted hx haccounted).bind (fun a h' _ haccounted => hf a h' haccounted)
    fun _ _ _ haccounted => haccounted

section Placing

variable {tabId : String} {cwd : Option String} {env : PaneEnv} {own : CardOwnership}
  {direction : SplitDirection} {ratio : Option ℚ}

theorem paneSplit_accounted {params : PaneSplitParams} (haccounted : Accounted req h kept) :
    (marked (Client.paneSplit params)).Meets anything
      (Adds req kept fun pane => pane.paneId :: kept) h := by
  refine meets_mapError.mpr (meets_query.mpr ⟨trivial, fun answer _ => ?_⟩)
  cases answer with
  | error e => exact haccounted.cons nofun (List.Subset.refl kept)
  | ok pane =>
      refine haccounted.cons (fun id hid => .inl ?_) (List.subset_cons_self _ _)
      obtain rfl : pane.paneId = id := Option.some.inj hid
      exact List.mem_cons_self

theorem splitRunChild_accounted (haccounted : Accounted req h []) :
    (splitRunChild workspaceId tabId anchorId cwd env).Meets anything
      (Adds req [] OwnedPane.panes) h := by
  refine Only.andThen (marked_only rfl) haccounted fun layout h₁ haccounted => ?_
  refine Only.andThen only_ofExcept haccounted fun geometry h₂ haccounted => ?_
  refine (paneSplit_accounted haccounted).bind (fun child h₃ _ hchild => ?_) fun _ _ _ hfailed =>
    hfailed
  exact hchild.mono (by simp [OwnedPane.panes])

/-- The root of a new tab is closed if the step fails. -/
theorem orCleanUp_accounted {x : Spawn α} (panes : α → List String)
    (hx : x.Meets anything (Adds req [anchorId] panes) h) :
    (orCleanUp anchorId x).Meets anything (Adds req [] panes) h := by
  refine meets_bind.mpr (meets_attempt.mpr (hx.mono fun outcome h₁ _ houtcome => ?_))
  cases outcome with
  | ok a => exact houtcome
  | error e => exact (closeAfterError_accounted houtcome).bind (fun _ _ _ hclosed =>
        hclosed) fun _ _ _ hclosed => hclosed

theorem orCleanUp_only_accounted {x : Spawn α} (hx : x.Only fun c => c.creates = false)
    (haccounted : Accounted req h [anchorId]) :
    (orCleanUp anchorId x).Meets anything (Adds req [] fun _ => [anchorId]) h :=
  orCleanUp_accounted (fun _ => [anchorId])
    ((Only.accounted hx haccounted).mono fun r _ _ haccounted => by
    cases r <;> exact haccounted)

/-- Nothing else knows a new tab yet, so each step that fails closes it. -/
theorem createCardTab_accounted (haccounted : Accounted req h []) :
    (createCardTab workspaceId tabLabel cwd env).Meets anything
      (Adds req [] OwnedPane.panes) h := by
  refine meets_bind.mpr (meets_mapError.mpr (meets_query.mpr ⟨trivial, fun answer _ => ?_⟩))
  cases answer with
  | error e => exact haccounted.cons nofun (List.Subset.refl _)
  | ok tab =>
      have hroot : Accounted req
          (⟨.tabCreate (tabParams workspaceId tabLabel cwd (anchorEnv env)), .ok tab⟩ :: h)
          [tab.rootPane.paneId] :=
        haccounted.cons (fun id hid => .inl (by simpa [createdPane, eq_comm] using hid))
          (List.nil_subset _)
      refine (orCleanUp_only_accounted (context_only (marked_only rfl)) hroot).bind
        (fun _ h₂ _ haccounted => ?_) fun _ _ _ hfailed => hfailed
      refine (orCleanUp_only_accounted (marked_only rfl) haccounted).bind
        (fun layout h₃ _ haccounted => ?_) fun _ _ _ hfailed => hfailed
      refine (orCleanUp_only_accounted only_ofExcept haccounted).bind
        (fun geometry h₄ _ haccounted => ?_) fun _ _ _ hfailed => hfailed
      exact (orCleanUp_accounted _ (paneSplit_accounted haccounted)).bind
        (fun child _ _ haccounted => haccounted) fun _ _ _ hfailed => hfailed

theorem adoptHinted_accounted {hint : Option WorkspaceBootstrapHint}
    (haccounted : Accounted req h []) :
    (adoptHinted workspaceId tabLabel cwd env hint).Meets anything
      (Adds req [] fun adopted => adopted.elim [] OwnedPane.panes) h := by
  cases hint with
  | none => exact haccounted
  | some bootstrap =>
      have hverify : (verifyBootstrap workspaceId bootstrap).Only fun c => c.creates = false := by
        refine Only.bind (unmarked_only rfl) fun tabs => Only.ite ?_ trivial
        exact Only.bind (unmarked_only rfl) fun _ => trivial
      refine meets_mapError.mpr
        ((Only.andThen hverify haccounted fun found h₁ haccounted => ?_).mono
        fun _ _ _ hadds => adds_mapError.mpr hadds)
      cases found with
      | none => exact haccounted
      | some root =>
          have hadopt : (adoptRoot workspaceId tabLabel bootstrap root cwd env).Meets anything
              (Adds req [] OwnedPane.panes) h₁ := by
            refine Only.andThen (context_only (marked_only rfl)) haccounted fun _ h₂ haccounted =>
              ?_
            refine Only.andThen (context_only (marked_only rfl)) haccounted fun _ h₃ haccounted =>
              ?_
            exact splitRunChild_accounted haccounted
          exact hadopt.bind (fun owned _ _ hadds => hadds) fun _ _ _ hfailed => hfailed

theorem reclaimPriorChildren_creates {panes : List PaneInfo} {guarded : String}
    {protect : Option String} {ids : List String} :
    (reclaimPriorChildren panes guarded ids protect).Only fun c => c.creates = false :=
  reclaimPriorChildren_only fun _ _ => rfl

theorem findRecovery_durable {panes : List PaneInfo} {recovery : PaneInfo}
    (hfound : own.findRecovery workspaceId tabId panes = some recovery) :
    recovery.paneId ∈ own.durablePaneIds := by
  obtain ⟨id, hid, hpane⟩ := List.exists_of_findSome?_eq_some hfound
  have hrecovers := List.find?_some hpane
  simp only [Bool.and_eq_true, beq_iff_eq] at hrecovers
  exact hrecovers.1.1.1 ▸ hid

/-- The new anchor is known by where it was split off only. -/
theorem recreateAnchor_accounted {panes : List PaneInfo} {recovery : PaneInfo}
    (hrecovery : recovery.paneId ∈ req.durablePaneIds) (haccounted : Accounted req h []) :
    (recreateAnchor workspaceId tabLabel cwd env own tabId panes recovery).Meets anything
      (Adds req [] OwnedPane.panes) h := by
  refine Only.andThen (marked_only rfl) haccounted fun layout h₁ haccounted => ?_
  refine Only.andThen only_ofExcept haccounted fun geometry h₂ haccounted => ?_
  refine Only.andThen only_ofExcept haccounted fun ratio h₃ haccounted => ?_
  refine meets_bind.mpr (meets_mapError.mpr (meets_query.mpr ⟨trivial, fun answer _ => ?_⟩))
  cases answer with
  | error e => exact haccounted.cons nofun (List.Subset.refl _)
  | ok anchor =>
      have haccounted := haccounted.cons (e :=
        ⟨.paneSplit (splitParams workspaceId recovery.paneId cwd (anchorEnv env)
        geometry.1 (some ratio)), .ok anchor⟩)
          (fun id hid => .inr ⟨_, anchor, List.mem_cons_self, hrecovery,
          Option.some.inj hid⟩) (List.Subset.refl [])
      refine Only.andThen (context_only (marked_only rfl)) haccounted fun _ h₄ haccounted => ?_
      refine Only.andThen reclaimPriorChildren_creates haccounted fun _ h₅ haccounted => ?_
      exact splitRunChild_accounted haccounted

theorem allocateInTab_accounted (hdurable : own.durablePaneIds = req.durablePaneIds)
    (haccounted : Accounted req h []) :
    (allocateInTab workspaceId tabLabel cwd env own tabId).Meets anything
      (Adds req [] OwnedPane.panes) h := by
  refine Only.andThen (marked_only rfl) haccounted fun listed h₁ haccounted => ?_
  dsimp only
  split
  · refine Only.andThen reclaimPriorChildren_creates haccounted fun _ h₂ haccounted => ?_
    exact haccounted.mono (List.nil_subset _)
  · split
    · refine Only.andThen reclaimPriorChildren_creates haccounted fun _ h₂ haccounted => ?_
      exact splitRunChild_accounted haccounted
    · split
      · next recovery hrecovery =>
          exact recreateAnchor_accounted (hdurable ▸ findRecovery_durable hrecovery) haccounted
      · exact createCardTab_accounted haccounted

theorem allocateCardPane_accounted (hdurable : own.durablePaneIds = req.durablePaneIds)
    (haccounted : Accounted req h []) :
    (allocateCardPane workspaceId tabLabel cwd env own).Meets anything
      (Adds req [] OwnedPane.panes) h := by
  refine Only.andThen (unmarked_only rfl) haccounted fun tabs h₁ haccounted => ?_
  refine (adoptHinted_accounted haccounted).bind (fun adopted h₂ _ hadopted => ?_)
    fun _ _ _ hfailed => hfailed
  split
  · exact hadopted
  · exact allocateInTab_accounted hdurable hadopted
  · exact createCardTab_accounted hadopted

/-- A shared tab has no anchor, and its new pane is the run's. -/
theorem allocateLegacyPane_accounted (haccounted : Accounted req h []) :
    (allocateLegacyPane workspaceId tabLabel cwd env).Meets anything
      (Adds req [] fun owned => [owned.paneId]) h := by
  refine Only.andThen (unmarked_only rfl) haccounted fun tabs h₁ haccounted => ?_
  split
  · refine meets_bind.mpr (meets_mapError.mpr (meets_query.mpr ⟨trivial, fun answer _ => ?_⟩))
    cases answer with
    | error e => exact haccounted.cons nofun (List.Subset.refl _)
    | ok tab =>
        exact haccounted.cons (fun id hid => .inl (by simpa [createdPane, eq_comm] using hid))
          (List.nil_subset _)
  · refine Only.andThen (marked_only rfl) haccounted fun listed h₂ haccounted => ?_
    dsimp only
    split
    · exact haccounted
    · refine Only.andThen (marked_only rfl) haccounted fun layout h₃ haccounted => ?_
      refine Only.andThen (only_mapError.mpr only_ofExcept) haccounted fun slot h₄ haccounted => ?_
      exact (paneSplit_accounted haccounted).bind (fun pane _ _ haccounted => haccounted)
        fun _ _ _ hfailed => hfailed

end Placing

/-! ## The attempts -/

section Attempts

variable {site : Site}

/-- In the tab of a card the anchor is one more pane to account for. -/
def placedPanes (site : Site) (owned : OwnedPane) : List String :=
  if isCardTab site.tabLabel then owned.panes else [owned.paneId]

theorem place_accounted (haccounted : Accounted req h []) :
    (place req site).Meets anything (Adds req [] (placedPanes site)) h := by
  refine meets_bind.mpr (meets_ask.mpr ⟨trivial, fun remembered _ => meets_mapError.mpr ?_⟩)
  have hasked : Accounted req (⟨.remembered site.key, remembered⟩ :: h) [] := haccounted.call rfl
  have hallocate : (allocateOwnedPane site.workspaceId site.tabLabel req.cwd (envMap req.env)
      (ownership req remembered)).Meets anything (Adds req [] (placedPanes site))
      (⟨.remembered site.key, remembered⟩ :: h) := by
    unfold allocateOwnedPane placedPanes
    split
    · exact allocateCardPane_accounted rfl hasked
    · exact allocateLegacyPane_accounted hasked
  exact hallocate.mono fun _ _ _ hadds => adds_mapError.mpr hadds

theorem rememberOwned_accounted {owned : OwnedPane}
    (hworkspace : req.workspaceRef = some site.workspaceId)
    (hlabel : req.tabLabel = some site.tabLabel)
    (haccounted : Accounted req h (placedPanes site owned)) :
    (rememberOwned site owned).Meets anything (Adds req [] fun _ => [owned.paneId]) h := by
  unfold rememberOwned
  split
  · next anchor hcard hanchor =>
      simp only [placedPanes, hcard, if_true, OwnedPane.panes, hanchor, Option.toList_some]
        at haccounted
      refine meets_ask.mpr ⟨trivial, fun _ _ => ?_⟩
      have hboth : Accounted req (⟨.remember site.key ⟨owned.tabId, anchor⟩, ()⟩ :: h)
          [anchor, owned.paneId] :=
        (haccounted.call rfl).mono (List.Perm.swap anchor owned.paneId []).subset
      exact hboth.drop (.inr (.inl ⟨site.key, owned.tabId, List.mem_cons_self, hworkspace, hlabel⟩))
  · next hnone =>
      refine meets_pure.mpr (haccounted.mono ?_)
      unfold placedPanes OwnedPane.panes
      split
      · next hcard =>
          cases hanchor : owned.anchorPaneId with
          | none => exact List.Subset.refl _
          | some anchor => exact absurd hanchor (hnone anchor hcard)
      · exact List.Subset.refl _

/-- The pane that a successful launch hands on. -/
def handed (handle : RuntimeHandle) : List String := handle.paneId.toList

theorem launch_creates {owned : OwnedPane} :
    (launch req site owned).Only fun c => c.creates = false :=
  launch_only (fun c haside => by cases c <;> first | rfl | cases haside) (fun _ _ _ => rfl)
    (fun _ => rfl) fun _ => ⟨fun _ => rfl, fun _ => rfl⟩

theorem launched_accounted {owned : OwnedPane} {captured : Option String}
    (haccounted : Accounted req h [owned.paneId]) :
    (launched req owned captured).Meets anything (Adds req [] handed) h := by
  refine meets_bind.mpr ?_
  unfold settleAnchor
  split
  · next kind anchor _ _ =>
      refine meets_bind.mpr
        (meets_attempt.mpr ((Only.accounted (closeOwnedForRetry_only rfl) haccounted).mono
        fun outcome h₁ _ haccounted => ?_))
      cases outcome <;> exact haccounted
  · exact haccounted

theorem spawnAttempt_accounted {first : Bool} {again : Spawn RuntimeHandle}
    (hworkspace : req.workspaceRef = some site.workspaceId)
    (hlabel : req.tabLabel = some site.tabLabel)
    (hagain : ∀ h', Accounted req h' [] → again.Meets anything (Adds req [] handed) h')
    (haccounted : Accounted req h []) :
    (spawnAttempt req site first again).Meets anything (Adds req [] handed) h := by
  refine meets_bind.mpr
    (meets_attempt.mpr ((place_accounted haccounted).mono fun placed h₁ _ hadds => ?_))
  cases placed with
  | error e =>
      simp only [after_ok]
      split
      · exact hagain _ hadds
      · exact hadds
  | ok owned =>
      refine (rememberOwned_accounted hworkspace hlabel hadds).bind (fun _ h₂ _ haccounted => ?_)
        fun _ _ _ hfailed => hfailed
      refine meets_bind.mpr (meets_attempt.mpr ((Only.accounted launch_creates haccounted).mono
        fun outcome h₃ _ haccounted => ?_))
      cases outcome with
      | ok captured => exact launched_accounted haccounted
      | error e =>
          simp only [after_ok]
          split
          · refine meets_bind.mpr (meets_attempt.mpr ((closeOwnedForRetry_accounted haccounted).mono
              fun closed h₄ _ haccounted => ?_))
            cases closed with
            | ok => exact hagain _ haccounted
            | error e => exact haccounted
          · exact (closeAfterError_accounted haccounted).bind (fun _ _ _ hclosed => hclosed)
              fun _ _ _ hclosed => hclosed

theorem spawnInner_accounted (defaultSocket : String) (req : HerdrLaunchPlan) :
    (spawnInner defaultSocket req).Meets anything (Adds req [] handed) [] := by
  have hgate : (connectCheckedFor (req.herdrSocket.getD defaultSocket) "pane placement").Only
      fun c => c.creates = false :=
    Only.bind (only_mapError.mpr (only_query.mpr rfl)) fun _ =>
      only_mapError.mpr (only_query.mpr rfl)
  refine Only.andThen hgate accounted_nil fun _ h₁ haccounted => ?_
  split
  · exact haccounted
  · exact haccounted
  · next workspaceId tabLabel hworkspace hlabel =>
      have hremember (site : Site) :
          (rememberBootstrap req site).Only fun c => c.creates = false := by
        unfold rememberBootstrap
        split
        · exact only_ask.mpr rfl
        · trivial
      refine Only.andThen (hremember _) haccounted fun _ h₂ haccounted => ?_
      refine spawnAttempt_accounted hworkspace hlabel (fun h₃ haccounted => ?_) haccounted
      exact spawnAttempt_accounted hworkspace hlabel (fun h₄ haccounted => haccounted) haccounted

end Attempts

/-- Whatever Herdr answers and wherever the launch fails, every pane that it created is the one that
it returns, was asked to be closed, was remembered as the anchor of the card's tab, or replaces an
anchor that the tab had lost. -/
theorem created_panes_accounted_for (defaultSocket : String) (req : HerdrLaunchPlan) (world : World)
    (paneId : String) (hcreated : paneId ∈ created (spawnLog defaultSocket req world)) :
    (∃ handle, (spawnRun defaultSocket req world).1 = .ok handle ∧ handle.paneId = some paneId) ∨
    CloseAsked (spawnLog defaultSocket req world) paneId ∨
    Remembered req (spawnLog defaultSocket req world) paneId ∨
    IsReplacement req (spawnLog defaultSocket req world) paneId := by
  have hrely (h : Log) : Follows anything.rely h := follows_of_forall fun _ _ => trivial
  have hadds : Adds req [] handed (spawnRun defaultSocket req world).1
      (spawnLog defaultSocket req world) :=
    ((spawnInner_accounted defaultSocket req).runs (runs_answered world _ []) (hrely _) trivial).2
  cases hrun : (spawnRun defaultSocket req world).1 with
  | error e =>
      rw [hrun] at hadds
      exact .inr ((hadds paneId hcreated).resolve_left List.not_mem_nil)
  | ok handle =>
      rw [hrun] at hadds
      exact (hadds paneId hcreated).imp_left fun hhanded =>
        ⟨handle, rfl, Option.mem_toList.mp hhanded⟩

/-- The anchor of the first tab of a launch that fails twice is not lost. -/
theorem created_panes_accounted_for_failed :
    (∃ handle, (spawnRun "herdr.sock" freshLaunch slowShell).1 = .ok handle ∧
    handle.paneId = some "p4") ∨ CloseAsked (spawnLog "herdr.sock" freshLaunch slowShell) "p4" ∨
    Remembered freshLaunch (spawnLog "herdr.sock" freshLaunch slowShell) "p4" ∨
    IsReplacement freshLaunch (spawnLog "herdr.sock" freshLaunch slowShell) "p4" :=
  created_panes_accounted_for "herdr.sock" freshLaunch slowShell "p4" (by decide +kernel)

/-- Of the card's tab only an ended run is left, and no pane can be labelled. -/
def unlabelled : World := fun h c => match c with
  | .paneList _ => .ok [⟨"p1", "w", "t1", none, .idle⟩]
  | .paneRename _ => .error .io
  | c => steadyHerdr h c

-- A replacement that cannot be labelled stays open, and nothing remembers it.
example : created (spawnLog "herdr.sock"
    { nextLaunch with durableAnchorPaneIds := [] } unlabelled) = ["p6"] ∧
    closed (spawnLog "herdr.sock" { nextLaunch with durableAnchorPaneIds := [] } unlabelled) =
      [] := by
  decide +kernel

end HerdrBoard.Spawner
