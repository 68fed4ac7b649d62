import HerdrBoard.Spawner.Evidence

/-!
# A launch touches only panes of the board

Both placement attempts split, label, start, prompt and close only panes that the launch created or
that the evidence of the last look shows to be the board's, whatever Herdr answers. -/

open Lib Lib.Dialog HerdrBoard.Core HerdrBoard.Daemon

namespace HerdrBoard.Spawner

variable {req : HerdrLaunchPlan} {workspaceId tabLabel : String} {h h₀ : Log} {α : Type}

/-! ## What a placement returns -/

/-- On the board's own panes, and the run is not in its anchor. -/
def Placed (req : HerdrLaunchPlan) (workspaceId : String) (owned : OwnedPane) (h : Log) : Prop :=
  IsPlace req workspaceId h owned.paneId ∧
    ∀ anchor, owned.anchorPaneId = some anchor →
      anchor ≠ owned.paneId ∧ IsShell req workspaceId h anchor

theorem Placed.since {owned : OwnedPane} (hplaced : Placed req workspaceId owned h₀)
    (hsince : Since h₀ h) :
    Placed req workspaceId owned h :=
  ⟨hsince.place hplaced.1, fun anchor hanchor => (hplaced.2 anchor hanchor).imp_right hsince.shell⟩

/-- A failure promises nothing. -/
def IfOk (p : α → Log → Prop) : Except Failure α → Log → Prop
  | .ok a, h => p a h
  | .error _, _ => True

@[simp] theorem ifOk_ok {p : α → Log → Prop} {a : α} : IfOk p (.ok a) h ↔ p a h := Iff.rfl

@[simp] theorem ifOk_error {p : α → Log → Prop} {e : Failure} : IfOk p (.error e) h ↔ True :=
  Iff.rfl

@[simp] theorem ifOk_mapError {p : α → Log → Prop} {f : Failure → Failure} {r : Except Failure α} :
    IfOk p (r.mapError f) h ↔ IfOk p r h := by
  cases r <;> rfl

/-- Calls that may be made now, and then the rest. -/
theorem Only.then {β : Type} {x : Spawn α} {f : α → Spawn β} {p : β → Log → Prop}
    (hx : x.Only (Tends req workspaceId tabLabel h))
    (hf : ∀ a h', Since h h' → (f a).Meets (touching req workspaceId tabLabel) (IfOk p) h') :
    (x >>= f).Meets (touching req workspaceId tabLabel) (IfOk p) h :=
  (Only.since hx).bind (fun a h' _ hsince => hf a h' hsince) fun _ _ _ _ => trivial

section Splitting

variable {anchorId : String} {cwd : Option String} {env : PaneEnv} {direction : SplitDirection}
    {ratio : Option ℚ}

/-- The new pane is the launch's own and not the one divided. -/
theorem paneSplit_touches (htarget : MayTouch req workspaceId h tabLabel
      (.paneSplit (splitParams workspaceId anchorId cwd env direction ratio))) :
    (marked (Client.paneSplit (splitParams workspaceId anchorId cwd env direction ratio))).Meets
      (touching req workspaceId tabLabel)
      (fun r h' => Since h h' ∧
        IfOk (fun pane h' => pane.paneId ∈ created h' ∧ pane.paneId ≠ anchorId) r h') h := by
  refine meets_mapError.mpr
    (meets_query.mpr ⟨htarget, fun answer hanswer => ⟨Since.refl.cons rfl, ?_⟩⟩)
  cases answer with
  | error e => trivial
  | ok pane => exact ⟨by simp [created, createdPane], by simpa [touching, keepsApart, splitParams]
      using hanswer⟩

theorem tends_paneLayout {paneId : String} :
    Tends req workspaceId tabLabel h (.paneLayout paneId) := ⟨rfl, trivial⟩

theorem splitRunChild_touches {tabId : String} (hanchor : IsShell req workspaceId h anchorId) :
    (splitRunChild workspaceId tabId anchorId cwd env).Meets (touching req workspaceId tabLabel)
      (IfOk (Placed req workspaceId)) h := by
  refine Only.then (marked_only tends_paneLayout) fun layout h₁ hsince => ?_
  refine Only.then only_ofExcept fun geometry h₂ hsince₂ => ?_
  have hanchor := (hsince.trans hsince₂).shell hanchor
  refine (paneSplit_touches ⟨rfl, .inl hanchor⟩).bind (fun child h₃ _ hchild => ?_) fun _ _ _ _ =>
    trivial
  obtain ⟨hsince₃, hown, hne⟩ := hchild
  refine ⟨.inl hown, ?_⟩
  rintro _ ⟨rfl⟩
  exact ⟨hne.symm, hsince₃.shell hanchor⟩

/-- Closing a new tab's root after a failure is closing a pane of the launch. -/
theorem orCleanUp_touches {x : Spawn α} {p : α → Log → Prop} (hown : anchorId ∈ created h)
    (hx : x.Meets (touching req workspaceId tabLabel) (fun r h' => Since h h' ∧ IfOk p r h') h) :
    (orCleanUp anchorId x).Meets (touching req workspaceId tabLabel) (IfOk p) h := by
  refine meets_bind.mpr (meets_attempt.mpr (hx.mono fun outcome h₁ _ houtcome => ?_))
  cases outcome with
  | ok a => exact houtcome.2
  | error e =>
      exact Only.then (closeAfterError_only ⟨rfl, .inl (.inl (houtcome.1.created hown))⟩)
        fun _ _ _ => trivial

end Splitting

/-! ## Where the pane is placed -/

section Placing

variable {tabId : String} {cwd : Option String} {env : PaneEnv} {remembered : Option OwnedCardTab}

theorem createCardTab_touches :
    (createCardTab workspaceId tabLabel cwd env).Meets (touching req workspaceId tabLabel)
    (IfOk (Placed req workspaceId)) h := by
  refine meets_bind.mpr (meets_mapError.mpr (meets_query.mpr ⟨⟨rfl, rfl⟩, fun answer _ => ?_⟩))
  cases answer with
  | error e => trivial
  | ok tab =>
      generalize hlog : (⟨.tabCreate _, .ok tab⟩ :: h : Log) = h₁
      have hown : tab.rootPane.paneId ∈ created h₁ := by simp [← hlog, created, createdPane]
      have hclose {h₂ : Log} (hsince : Since h₁ h₂) :
          Tends req workspaceId tabLabel h₂ (.paneClose tab.rootPane.paneId) :=
        ⟨rfl, .inl (.inl (hsince.created hown))⟩
      refine Only.then (orCleanUp_only (hclose Since.refl)
        (context_only (marked_only ⟨rfl, .inl hown⟩))) fun _ h₂ hsince₂ => ?_
      refine Only.then (orCleanUp_only (hclose hsince₂) (marked_only tends_paneLayout))
        fun layout h₃ hsince₃ => ?_
      have hsince₃ := hsince₂.trans hsince₃
      refine Only.then (orCleanUp_only (hclose hsince₃) only_ofExcept) fun geometry h₄ hsince₄ => ?_
      have hown₄ := (hsince₃.trans hsince₄).created hown
      refine (orCleanUp_touches hown₄ (paneSplit_touches ⟨rfl, .inl (.inl hown₄)⟩)).bind
        (fun child h₅ hle hchild => ?_) fun _ _ _ _ => trivial
      refine ⟨.inl hchild.1, ?_⟩
      rintro _ ⟨rfl⟩
      exact ⟨hchild.2.symm, .inl (created_suffix hle hown₄)⟩

/-- The root of an initial tab that verifies is the launch's own, and nothing else is learnt. -/
theorem verifyBootstrap_touches {bootstrap : WorkspaceBootstrapHint}
    (hhint : req.bootstrap = some bootstrap) :
    (verifyBootstrap workspaceId bootstrap).Meets (touching req workspaceId tabLabel)
      (IfOk fun found h' => registered h' = registered h ∧
        ∀ root, found = some root → root.paneId = bootstrap.rootPaneId ∧
          IsRoot req workspaceId h' root.paneId) h := by
  refine Only.then (unmarked_only ⟨rfl, trivial⟩) fun tabs h₁ hsince => ?_
  split
  · refine meets_bind.mpr (meets_mapError.mpr (meets_query.mpr ⟨trivial, fun answer _ => ?_⟩))
    cases answer with
    | error e => trivial
    | ok listed =>
        refine ⟨hsince.2.1, fun root hroot => ?_⟩
        simp only [soleShell] at hroot
        split at hroot
        · next sole hsole =>
            obtain ⟨⟨hid, hagent⟩, ⟨⟩⟩ : (_ ∧ _) ∧ sole = root := by simpa using hroot
            exact ⟨hid, bootstrap, _, hhint, hsole, hid, hagent, rfl⟩
        · cases hroot
  · exact ⟨hsince.2.1, nofun⟩

theorem adoptRoot_touches {bootstrap : WorkspaceBootstrapHint} {root : PaneInfo}
    (hhint : req.bootstrap = some bootstrap)
    (hid : root.paneId = bootstrap.rootPaneId) (hroot : IsRoot req workspaceId h root.paneId) :
    (adoptRoot workspaceId tabLabel bootstrap root cwd env).Meets
      (touching req workspaceId tabLabel) (IfOk (Placed req workspaceId)) h := by
  refine Only.then (context_only (marked_only ⟨rfl, rfl, bootstrap, hhint, rfl, hid ▸ hroot⟩))
    fun _ h₁ hsince => ?_
  have hroot := hsince.root.mpr hroot
  refine Only.then (context_only (marked_only ⟨rfl, .inr hroot⟩)) fun _ h₂ hsince => ?_
  exact splitRunChild_touches (.inr (.inl (hsince.root.mpr hroot)))

/-- A pane in the adopted tab, or no more knowledge of the card's tab than before. -/
def Adopted (req : HerdrLaunchPlan) (workspaceId : String) (h : Log) : Option OwnedPane → Log → Prop
  | some owned, h' => Placed req workspaceId owned h'
  | none, h' => registered h' = registered h

theorem adoptHinted_touches {hint : Option WorkspaceBootstrapHint} (hhint : req.bootstrap = hint) :
    (adoptHinted workspaceId tabLabel cwd env hint).Meets (touching req workspaceId tabLabel)
      (IfOk (Adopted req workspaceId h)) h := by
  cases hint with
  | none => exact rfl
  | some bootstrap =>
      refine meets_mapError.mpr ?_
      refine (verifyBootstrap_touches hhint).bind (fun found h₁ _ hfound => ?_) fun _ _ _ _ =>
        trivial
      cases found with
      | none => exact hfound.1
      | some root =>
          obtain ⟨hid, hroot⟩ := hfound.2 root rfl
          exact (adoptRoot_touches hhint hid hroot).bind (fun owned _ _ hplaced => hplaced)
            fun _ _ _ _ => trivial

/-! ## In the tab of the card -/

/-- The listed panes of the card's tab. -/
def tabPanes (workspaceId tabId : String) (listed : List PaneInfo) : List PaneInfo :=
  listed.filter fun pane => pane.tabId == tabId && pane.workspaceId == workspaceId

theorem inOwnedTab_of_mem {listed : List PaneInfo} {pane : PaneInfo} (hlisting : listing h = listed)
    (htab : ownedTab req h = some tabId) (hpane : pane ∈ tabPanes workspaceId tabId listed) :
    InOwnedTab req workspaceId h pane := by
  obtain ⟨hmem, hin⟩ := List.mem_filter.mp hpane
  simp only [Bool.and_eq_true, beq_iff_eq] at hin
  exact ⟨hlisting ▸ hmem, hin.2, htab.trans (congrArg some hin.1.symm)⟩

/-- What the evidence of a request amounts to in the panes of the owned tab. -/
theorem findAnchor_isAnchor {listed : List PaneInfo} {pane : PaneInfo}
    (hregistered : registered h = remembered)
    (hlisting : listing h = listed) (htab : ownedTab req h = some tabId)
    (hfound : (ownership req remembered).findAnchor workspaceId tabId
      (tabPanes workspaceId tabId listed) = some pane) :
    IsAnchor req workspaceId h pane.paneId ∧ pane ∈ listed ∧ pane.agent = none := by
  obtain ⟨id, hid, hpane⟩ := List.exists_of_findSome?_eq_some hfound
  have hmem := List.mem_of_find?_eq_some hpane
  have husable := List.find?_some hpane
  simp only [CardOwnership.usableAnchor, CardOwnership.isDurableChild, ownership,
    Bool.and_eq_true, beq_iff_eq,
    Bool.not_eq_true', List.any_eq_false, Option.isNone_iff_eq_none] at husable
  obtain ⟨rfl, ⟨⟨⟨-, -⟩, hagent⟩, -⟩, hdurable⟩ := husable
  refine ⟨⟨fun hin => hdurable _ hin rfl, ?_, pane, inOwnedTab_of_mem hlisting htab hmem,
    rfl, hagent⟩, (List.mem_filter.mp hmem).1, hagent⟩
  rcases List.mem_append.mp hid with hid | hid
  · exact .inl (by simpa [ownership, hregistered] using hid)
  · exact .inr hid

theorem findReuse_isReuse {listed : List PaneInfo} {pane : PaneInfo} (hlisting : listing h = listed)
    (htab : ownedTab req h = some tabId)
    (hfound : (ownership req remembered).findReuse workspaceId tabId
      (tabPanes workspaceId tabId listed) = some pane) :
    IsReuse req workspaceId h pane.paneId ∧ pane ∈ listed ∧ pane.agent ≠ none := by
  obtain ⟨reuseId, hreuse, hpane⟩ := Option.bind_eq_some_iff.mp hfound
  have hmem := List.mem_of_find?_eq_some hpane
  have hcan := List.find?_some hpane
  simp only [CardOwnership.canReuse, ownership, Bool.and_eq_true, beq_iff_eq, bne_iff_ne] at hcan
  obtain ⟨⟨⟨⟨⟨rfl, -⟩, -⟩, hkind⟩, hagent⟩, hstatus⟩ := hcan
  refine ⟨⟨hreuse, hkind, pane, inOwnedTab_of_mem hlisting htab hmem, rfl, hagent, hstatus⟩,
    (List.mem_filter.mp hmem).1, ?_⟩
  rw [hagent]
  exact Option.isSome_iff_ne_none.mp hkind

theorem findRecovery_isRun {listed : List PaneInfo} {pane : PaneInfo}
    (hlisting : listing h = listed) (htab : ownedTab req h = some tabId)
    (hfound : (ownership req remembered).findRecovery workspaceId tabId
      (tabPanes workspaceId tabId listed) = some pane) :
    IsRun req workspaceId h req.durablePaneIds pane.paneId := by
  obtain ⟨id, hid, hpane⟩ := List.exists_of_findSome?_eq_some hfound
  have hmem := List.mem_of_find?_eq_some hpane
  have hrecovers := List.find?_some hpane
  simp only [Bool.and_eq_true, beq_iff_eq, Bool.not_eq_true'] at hrecovers
  obtain ⟨⟨⟨rfl, -⟩, -⟩, hbusy⟩ := hrecovers
  exact ⟨hid, pane, inOwnedTab_of_mem hlisting htab hmem, rfl, hbusy⟩

/-- Only ended children of the card that were not busy are closed to make room. -/
theorem reclaimPriorChildren_tends {listed : List PaneInfo} {guarded : String}
    {protect : Option String} (hlisting : listing h = listed) (htab : ownedTab req h = some tabId) :
    (reclaimPriorChildren (tabPanes workspaceId tabId listed) guarded req.reclaimablePaneIds
      protect).Only (Tends req workspaceId tabLabel h) := by
  refine closeEach_only fun pane hpane => ?_
  obtain ⟨hmem, hreclaims⟩ := List.mem_filter.mp hpane
  simp only [reclaims, Bool.and_eq_true, List.any_eq_true, beq_iff_eq, Bool.not_eq_true']
    at hreclaims
  obtain ⟨⟨-, id, hid, rfl⟩, hbusy⟩ := hreclaims
  exact ⟨rfl, .inr (.inr ⟨hid, pane, inOwnedTab_of_mem hlisting htab hmem, rfl, hbusy⟩)⟩

theorem recreateAnchor_touches {listed : List PaneInfo} {recovery : PaneInfo}
    (hlisting : listing h = listed) (htab : ownedTab req h = some tabId)
    (hrecovery : IsRun req workspaceId h req.durablePaneIds recovery.paneId) :
    (recreateAnchor workspaceId tabLabel cwd env (ownership req remembered) tabId
      (tabPanes workspaceId tabId listed)
      recovery).Meets (touching req workspaceId tabLabel) (IfOk (Placed req workspaceId)) h := by
  refine Only.then (marked_only tends_paneLayout) fun layout h₁ hsince₁ => ?_
  refine Only.then only_ofExcept fun geometry h₂ hsince₂ => ?_
  refine Only.then only_ofExcept fun ratio h₃ hsince₃ => ?_
  have hsince₃ := (hsince₁.trans hsince₂).trans hsince₃
  refine (paneSplit_touches ⟨rfl, .inr (hsince₃.run.mpr hrecovery)⟩).bind
    (fun anchor h₄ _ hanchor => ?_) fun _ _ _ _ => trivial
  obtain ⟨hsince₄, hown, -⟩ := hanchor
  refine Only.then (context_only (marked_only ⟨rfl, .inl hown⟩)) fun _ h₅ hsince₅ => ?_
  have hsince := (hsince₃.trans hsince₄).trans hsince₅
  have hlisting₅ : listing h₅ = listed := hsince.1.trans hlisting
  have htab₅ : ownedTab req h₅ = some tabId := by rw [ownedTab, hsince.2.1]; exact htab
  refine Only.then (reclaimPriorChildren_tends hlisting₅ htab₅) fun _ h₆ hsince₆ => ?_
  exact splitRunChild_touches (.inl ((hsince₅.trans hsince₆).created hown))

theorem allocateInTab_touches (hregistered : registered h = remembered)
    (htab : ownedTab req h = some tabId) :
    (allocateInTab workspaceId tabLabel cwd env (ownership req remembered) tabId).Meets
      (touching req workspaceId tabLabel) (IfOk (Placed req workspaceId)) h := by
  refine meets_bind.mpr (meets_mapError.mpr (meets_query.mpr ⟨trivial, fun answer hanswer => ?_⟩))
  cases answer with
  | error e => trivial
  | ok listed =>
      have hdistinct : (listed.map PaneInfo.paneId).Nodup := of_decide_eq_true hanswer
      generalize hlog : (⟨.paneList workspaceId, .ok listed⟩ :: h : Log) = h₁
      have hlisting : listing h₁ = listed := by rw [← hlog]; rfl
      have hregistered : registered h₁ = remembered := by rw [← hlog]; exact hregistered
      have htab : ownedTab req h₁ = some tabId := by rw [← hlog]; exact htab
      have hreclaim {guarded : String} {protect : Option String} : (reclaimPriorChildren
          (tabPanes workspaceId tabId listed) guarded req.reclaimablePaneIds protect).Only
          (Tends req workspaceId tabLabel h₁) := reclaimPriorChildren_tends hlisting htab
      simp only [id_eq, Except.mapError, Dialog.after_ok]
      split
      · next reuse hreuse =>
          obtain ⟨hreuse, hlisted, hagent⟩ := findReuse_isReuse hlisting htab hreuse
          refine Only.then hreclaim fun _ h₂ hsince =>
            ⟨.inr (hsince.reuse.mpr hreuse), fun anchor hanchor => ?_⟩
          obtain ⟨shell, hshell, rfl⟩ := Option.map_eq_some_iff.mp hanchor
          obtain ⟨hanchor, hmem, hnone⟩ := findAnchor_isAnchor hregistered hlisting htab hshell
          refine ⟨fun heq => hagent ?_, .inr (.inr (hsince.anchor.mpr hanchor))⟩
          rw [← List.inj_on_of_nodup_map hdistinct hmem hlisted heq, hnone]
      · split
        · next anchor hanchor =>
            obtain ⟨hanchor, -⟩ := findAnchor_isAnchor hregistered hlisting htab hanchor
            refine Only.then hreclaim fun _ h₂ hsince => ?_
            exact splitRunChild_touches (.inr (.inr (hsince.anchor.mpr hanchor)))
        · split
          · next recovery hrecovery =>
              exact recreateAnchor_touches hlisting htab
                (findRecovery_isRun hlisting htab hrecovery)
          · exact createCardTab_touches

theorem allocateCardPane_touches (hregistered : registered h = remembered) :
    (allocateCardPane workspaceId tabLabel cwd env (ownership req remembered)).Meets
      (touching req workspaceId tabLabel) (IfOk (Placed req workspaceId)) h := by
  refine Only.then (unmarked_only ⟨rfl, trivial⟩) fun tabs h₁ hsince => ?_
  refine (adoptHinted_touches rfl).bind (fun adopted h₂ _ hadopted => ?_) fun _ _ _ _ => trivial
  split
  · exact hadopted
  · next tab htab =>
      obtain ⟨tabId, howned, hfound⟩ := Option.bind_eq_some_iff.mp htab
      have hid : tab.tabId = tabId := by
        have hmatches := List.find?_some hfound
        simp only [Bool.and_eq_true, beq_iff_eq] at hmatches
        exact hmatches.1
      have hregistered₂ : registered h₂ = remembered :=
        hadopted.trans (hsince.2.1.trans hregistered)
      refine allocateInTab_touches hregistered₂ ?_
      rw [ownedTab, hregistered₂, hid]
      exact howned
  · exact createCardTab_touches

end Placing

theorem place_touches {site : Site} (hcard : isCardTab site.tabLabel = true) :
    (place req site).Meets (touching req site.workspaceId site.tabLabel)
    (IfOk (Placed req site.workspaceId)) h := by
  refine meets_bind.mpr (meets_ask.mpr ⟨trivial, fun remembered _ => meets_mapError.mpr ?_⟩)
  rw [allocateOwnedPane, if_pos hcard]
  exact (allocateCardPane_touches rfl).mono fun r h' _ hplaced => ifOk_mapError.mpr hplaced

/-! ## On the pane -/

section Launching

variable {P : Call → Prop} {paneId : String}

/-- Neither a look nor a request on a pane. -/
def Call.isAside : Call → Bool
  | .agentGet _ => true
  | .writePromptFile _ => true
  | .removePromptFile _ => true
  | .writeScript _ => true
  | .removeScript _ => true
  | .clock => true
  | .sleep _ => true
  | _ => false

variable (haside : ∀ c : Call, c.isAside = true → P c)
include haside

theorem awaitAgent_only (waiting timeout : String) (ready : AgentInfo → Bool) (turns : Nat) :
    (awaitAgent paneId waiting timeout ready turns).Only P := by
  have hget : (Spawn.context waiting (awaitAgent.unmarkedGet paneId)).Only P :=
    context_only (only_mapError.mpr (only_query.mpr (haside _ rfl)))
  induction turns with
  | zero => exact Only.bind hget fun agent => Only.ite trivial trivial
  | succ turns ih => exact Only.bind hget fun agent => Only.ite trivial ih

theorem pollSession_only (read : AgentSession → Option (Option String)) (turns : Nat) :
    (pollSession paneId read turns).Only P := by
  have hget : ((Client.agentGet paneId).attempt : Spawn (Except HerdrError AgentInfo)).Only P :=
    only_attempt.mpr (only_query.mpr (haside _ rfl))
  induction turns with
  | zero =>
      refine Only.bind hget fun agent => ?_
      cases agent <;> trivial
  | succ turns ih =>
      refine Only.bind hget fun agent => ?_
      cases agent with
      | error e => trivial
      | ok agent =>
          dsimp only
          split
          · trivial
          · exact ih

theorem capture_only (harness : SelfMinting) : (harness.capture paneId).Only P :=
  Only.bind (only_ask.mpr (haside _ rfl)) fun _ => pollSession_only haside _ _

/-- One send, with what it is tried again with. -/
theorem agentPrompt_only {params : AgentPromptParams} {name : String} {retries backoff : Nat}
    (hprompt : P (.agentPrompt params)) (hagain : ∀ remaining, retries = remaining + 1 →
      (agentPromptWithBusyRetry params name remaining (backoff * 2)).Only P) :
    (agentPromptWithBusyRetry params name retries backoff).Only P := by
  unfold agentPromptWithBusyRetry
  refine Only.bind (only_attempt.mpr (only_query.mpr hprompt)) fun answer => ?_
  cases answer with
  | ok => trivial
  | error e =>
      refine Only.ite (Only.bind (only_attempt.mpr (only_query.mpr (haside _ rfl))) fun seen => ?_)
        trivial
      cases seen with
      | error e => trivial
      | ok agent =>
          refine Only.ite ?_ trivial
          cases retries with
          | zero => trivial
          | succ remaining =>
              exact Only.bind (only_ask.mpr (haside _ rfl)) fun _ => hagain remaining rfl

theorem agentPromptWithBusyRetry_only {params : AgentPromptParams}
    (hprompt : P (.agentPrompt params)) (name : String)
    (retries backoff : Nat) : (agentPromptWithBusyRetry params name retries backoff).Only P := by
  induction retries generalizing backoff with
  | zero => exact agentPrompt_only haside hprompt nofun
  | succ retries ih =>
      refine agentPrompt_only haside hprompt fun remaining hretries => ?_
      obtain rfl := Nat.succ.inj hretries
      exact ih _

theorem promptWhenReady_only (req : HerdrLaunchPlan)
    (hprompt : ∀ text, P (.agentPrompt ⟨paneId, text⟩)) : (promptWhenReady req paneId).Only P := by
  unfold promptWhenReady
  cases req.initialPrompt with
  | none => trivial
  | some text =>
      refine Only.bind (Only.bind (only_ask.mpr (haside _ rfl)) fun _ =>
        pollSession_only haside _ _) fun _ => ?_
      exact agentPromptWithBusyRetry_only haside (hprompt text) _ _ _

theorem promptReusedPane_only (req : HerdrLaunchPlan)
    (hprompt : ∀ text, P (.agentPrompt ⟨paneId, text⟩)) : (promptReusedPane req paneId).Only P := by
  refine Only.bind (Only.bind (only_ask.mpr (haside _ rfl)) fun _ => awaitAgent_only haside ..)
    fun _ => ?_
  exact promptWhenReady_only haside req hprompt

theorem agentStartRetryBusy_only {params : AgentStartParams} (hstart : P (.agentStart params))
    (retries backoff : Nat) : (agentStartRetryBusy params retries backoff).Only P := by
  induction retries generalizing backoff with
  | zero =>
      unfold agentStartRetryBusy
      refine Only.bind (only_attempt.mpr (only_query.mpr hstart)) fun answer => ?_
      cases answer with
      | ok => trivial
      | error e => exact Only.ite trivial trivial
  | succ retries ih =>
      unfold agentStartRetryBusy
      refine Only.bind (only_attempt.mpr (only_query.mpr hstart)) fun answer => ?_
      cases answer with
      | ok => trivial
      | error e => exact Only.ite (Only.bind (only_ask.mpr (haside _ rfl)) fun _ => ih _) trivial

/-- Under both names the agent is started in the same pane. -/
theorem startAgent_only (req : HerdrLaunchPlan) (kind : String) (args : List String)
    (hstart : ∀ p : AgentStartParams, p.paneId = paneId → P (.agentStart p)) :
    (startAgent req kind paneId args).Only P := by
  refine Only.bind (Only.bind (agentStartRetryBusy_only haside (hstart _ rfl) _ _)
    fun started => ?_) fun _ => only_ofExcept
  obtain ⟨answer, budget⟩ := started
  cases answer with
  | ok => trivial
  | error e =>
      refine Only.ite ?_ trivial
      cases req.nameFallback with
      | none => trivial
      | some name => exact Only.bind (agentStartRetryBusy_only haside (hstart _ rfl) _ _) fun _ =>
          trivial

theorem awaitInteractiveReady_only (started : AgentInfo) : (awaitInteractiveReady started).Only P :=
  Only.ite trivial (Only.bind (only_ask.mpr (haside _ rfl)) fun _ => awaitAgent_only haside ..)

theorem launchManagedSelfMinting_only (harness : SelfMinting) (req : HerdrLaunchPlan)
    (hstart : ∀ p : AgentStartParams, p.paneId = paneId → P (.agentStart p))
    (hprompt : ∀ text, P (.agentPrompt ⟨paneId, text⟩)) :
    (launchManagedSelfMinting harness req paneId).Only P := by
  have hcapture := @capture_only P paneId haside harness
  unfold launchManagedSelfMinting
  split
  · trivial
  · trivial
  · refine Only.bind (startAgent_only haside req _ _ hstart) fun started => ?_
    refine Only.bind (awaitInteractiveReady_only haside started) fun _ => ?_
    refine Only.bind (Only.ite only_pure hcapture) fun captured => ?_
    refine Only.bind ?_ fun _ => Only.ite hcapture only_pure
    unfold promptMinting
    cases harness.promptText req with
    | none => trivial
    | some text => exact agentPromptWithBusyRetry_only haside (hprompt text) _ _ _

theorem launchManagedPromptFile_only (req : HerdrLaunchPlan) (kind : String)
    (hstart : ∀ p : AgentStartParams, p.paneId = paneId → P (.agentStart p))
    (hprompt : ∀ text, P (.agentPrompt ⟨paneId, text⟩)) :
    (launchManagedPromptFile req kind paneId).Only P := by
  unfold launchManagedPromptFile
  split
  · trivial
  · trivial
  · trivial
  · refine Only.bind (only_mapError.mpr (only_query.mpr (haside _ rfl))) fun path => ?_
    refine Only.bind (only_attempt.mpr ?_) fun outcome => ?_
    · refine Only.bind (startAgent_only haside req _ _ hstart) fun started => ?_
      exact Only.bind (awaitInteractiveReady_only haside started) fun _ =>
        promptWhenReady_only haside req hprompt
    · refine Only.bind (only_attempt.mpr
        (context_only (only_mapError.mpr (only_query.mpr (haside _ rfl))))) fun removal => ?_
      cases outcome <;> cases removal <;> trivial

theorem launchManaged_only (req : HerdrLaunchPlan) (kind : String) (reuse : Bool)
    (hstart : reuse = false → ∀ p : AgentStartParams, p.paneId = paneId → P (.agentStart p))
    (hprompt : ∀ text, P (.agentPrompt ⟨paneId, text⟩)) :
    (launchManaged req kind paneId reuse).Only P := by
  unfold launchManaged
  cases reuse with
  | true => exact Only.bind (promptReusedPane_only haside req hprompt) fun _ => trivial
  | false =>
      simp only [Bool.false_eq_true, if_false]
      split
      · exact launchManagedSelfMinting_only haside _ req (hstart rfl) hprompt
      · exact launchManagedSelfMinting_only haside _ req (hstart rfl) hprompt
      · exact launchManagedSelfMinting_only haside _ req (hstart rfl) hprompt
      · exact Only.bind (launchManagedPromptFile_only haside req _ (hstart rfl) hprompt) fun _ =>
          trivial
      · exact Only.bind (launchManagedPromptFile_only haside req _ (hstart rfl) hprompt) fun _ =>
          trivial
      · trivial

theorem launchConfigured_only (socket : String) (req : HerdrLaunchPlan)
    (hrename : ∀ label, P (.paneRename ⟨paneId, label⟩))
    (hrun : ∀ script, P (.paneRun socket paneId script)) :
    (launchConfigured socket req paneId).Only P := by
  refine Only.ite trivial ?_
  refine Only.bind (context_only (marked_only (hrename _))) fun _ => ?_
  refine Only.bind (only_mapError.mpr (only_query.mpr (haside _ rfl))) fun path => ?_
  refine Only.bind (only_attempt.mpr (only_mapError.mpr (only_query.mpr (hrun path)))) fun ran => ?_
  cases ran with
  | ok => trivial
  | error e =>
      refine Only.bind (only_attempt.mpr
        (context_only (only_mapError.mpr (only_query.mpr (haside _ rfl))))) fun gone => ?_
      cases gone <;> trivial

/-- Everything a launch does on the placed pane. -/
theorem launch_only {req : HerdrLaunchPlan} {site : Site} {owned : OwnedPane}
    (hstart : req.reusePaneId ≠ some owned.paneId →
      ∀ p : AgentStartParams, p.paneId = owned.paneId → P (.agentStart p))
    (hprompt : ∀ text, P (.agentPrompt ⟨owned.paneId, text⟩))
    (hconfigured : req.agentKind = none → (∀ label, P (.paneRename ⟨owned.paneId, label⟩)) ∧
      ∀ script, P (.paneRun site.socket owned.paneId script)) : (launch req site owned).Only P := by
  unfold launch
  split
  · exact launchManaged_only haside req _ _ (fun hreuse => hstart (by simpa using hreuse)) hprompt
  · next hkind =>
      obtain ⟨hrename, hrun⟩ := hconfigured hkind
      exact Only.bind (launchConfigured_only haside _ req hrename hrun) fun _ => trivial

end Launching

theorem tends_aside {c : Call} (haside : c.isAside = true) :
    Tends req workspaceId tabLabel h c := by
  cases c <;> first | exact ⟨rfl, trivial⟩ | cases haside

/-- Only a pane of the launch's own is started in; the pane of the prior run is only prompted. -/
theorem launch_tends {site : Site} {owned : OwnedPane}
    (hplace : IsPlace req site.workspaceId h owned.paneId) :
    (launch req site owned).Only (Tends req site.workspaceId site.tabLabel h) := by
  refine launch_only (fun c => tends_aside) (fun hreuse p hp => ?_)
    (fun text => ⟨rfl, hplace⟩) fun hkind => ?_
  · rcases hplace with hown | hreused
    · exact ⟨rfl, (congrArg (· ∈ created h) hp).mpr hown⟩
    · exact absurd hreused.1 hreuse
  · have hown : owned.paneId ∈ created h := by
      rcases hplace with hown | ⟨-, hreusing, -⟩
      · exact hown
      · simp [hkind] at hreusing
    exact ⟨fun _ => ⟨rfl, .inl hown⟩, fun _ => ⟨rfl, hown⟩⟩

/-! ## The attempts -/

/-- What a successful launch returns: the run's pane, and an anchor other than it. -/
def Returned (req : HerdrLaunchPlan) (workspaceId : String) (handle : RuntimeHandle) (h : Log) :
    Prop :=
  ∃ paneId, handle.paneId = some paneId ∧ handle.anchorPaneId ≠ some paneId ∧
    IsPlace req workspaceId h paneId

theorem launched_touches {owned : OwnedPane} {captured : Option String}
    (hplaced : Placed req workspaceId owned h) :
    (launched req owned captured).Meets (touching req workspaceId tabLabel)
    (IfOk (Returned req workspaceId)) h := by
  have hanchor : owned.anchorPaneId ≠ some owned.paneId := fun heq => (hplaced.2 _ heq).1 rfl
  refine meets_bind.mpr ?_
  unfold settleAnchor
  split
  · next kind anchor _ hsome =>
      have hclose : Tends req workspaceId tabLabel h (.paneClose anchor) :=
        ⟨rfl, .inr (.inl (hplaced.2 _ hsome).2)⟩
      refine meets_bind.mpr (meets_attempt.mpr ((Only.since (closeOwnedForRetry_only hclose)).mono
        fun closed h₁ _ hsince => ?_))
      have hplace := hsince.place hplaced.1
      cases closed with
      | ok => exact ⟨_, rfl, nofun, hplace⟩
      | error e => exact ⟨_, rfl, hsome ▸ hanchor, hplace⟩
  · exact ⟨_, rfl, hanchor, hplaced.1⟩

theorem spawnAttempt_touches {site : Site} {first : Bool} {again : Spawn RuntimeHandle}
    (hcard : isCardTab site.tabLabel = true)
    (hagain : ∀ h', again.Meets (touching req site.workspaceId site.tabLabel)
      (IfOk (Returned req site.workspaceId)) h') :
    (spawnAttempt req site first again).Meets (touching req site.workspaceId site.tabLabel)
      (IfOk (Returned req site.workspaceId)) h := by
  refine meets_bind.mpr
    (meets_attempt.mpr ((place_touches hcard).mono fun placed h₁ _ hplaced => ?_))
  cases placed with
  | error e =>
      simp only [after_ok]
      split
      · exact hagain _
      · trivial
  | ok owned =>
      have hremember : (rememberOwned site owned).Only
          (Tends req site.workspaceId site.tabLabel h₁) := by
        unfold rememberOwned
        split
        · exact only_ask.mpr ⟨rfl, trivial⟩
        · trivial
      refine Only.then hremember fun _ h₂ hsince => ?_
      have hplaced : Placed req site.workspaceId owned h₂ := hplaced.since hsince
      refine meets_bind.mpr
        (meets_attempt.mpr ((Only.since (launch_tends hplaced.1)).mono
          fun outcome h₃ _ hsince => ?_))
      have hplaced := hplaced.since hsince
      have hclose : Tends req site.workspaceId site.tabLabel h₃ (.paneClose owned.paneId) :=
        ⟨rfl, .inl hplaced.1⟩
      cases outcome with
      | ok captured => exact launched_touches hplaced
      | error e =>
          simp only [after_ok]
          split
          · refine meets_bind.mpr
              (meets_attempt.mpr ((Only.since (closeOwnedForRetry_only hclose)).mono
              fun closed h₄ _ _ => ?_))
            cases closed with
            | ok => exact hagain _
            | error e => trivial
          · exact Only.then (closeAfterError_only hclose) fun _ _ _ => trivial

theorem spawnInner_touches (defaultSocket : String)
    (hworkspace : req.workspaceRef = some workspaceId)
    (hlabel : req.tabLabel = some tabLabel) (hcard : isCardTab tabLabel = true) :
    (spawnInner defaultSocket req).Meets (touching req workspaceId tabLabel)
    (IfOk (Returned req workspaceId)) [] := by
  have hgate : (connectCheckedFor (req.herdrSocket.getD defaultSocket) "pane placement").Only
      (Tends req workspaceId tabLabel []) :=
    Only.bind (only_mapError.mpr (only_query.mpr ⟨rfl, trivial⟩)) fun _ =>
      only_mapError.mpr (only_query.mpr ⟨rfl, trivial⟩)
  refine Only.then hgate fun _ h₁ _ => ?_
  rw [hworkspace, hlabel]
  have hremember (site : Site) :
      (rememberBootstrap req site).Only (Tends req workspaceId tabLabel h₁) := by
    unfold rememberBootstrap
    split
    · exact only_ask.mpr ⟨rfl, trivial⟩
    · trivial
  refine Only.then (hremember _) fun _ h₂ _ => ?_
  refine spawnAttempt_touches hcard fun h₃ => spawnAttempt_touches hcard fun h₄ => ?_
  trivial

/-- Whatever Herdr answers, a launch in the tab of a card touches only panes that it created or
that the last listing, the request and the registry show to be the card's; an anchor is a shell, a
pane that is closed to make room was not busy, only the pane of the continued run is prompted
without having been started; and the pane that is returned is the launch's own or that pane, and
never the anchor. -/
theorem touches_only_owned_panes (defaultSocket : String) (req : HerdrLaunchPlan) (world : World)
    (workspaceId tabLabel : String) (hworkspace : req.workspaceRef = some workspaceId)
    (hlabel : req.tabLabel = some tabLabel) (hcard : isCardTab tabLabel = true)
    (happart : ∀ e ∈ spawnLog defaultSocket req world, keepsApart e = true) :
    (∀ past c a, ⟨c, a⟩ :: past <:+ spawnLog defaultSocket req world →
      MayTouch req workspaceId past tabLabel c) ∧
    (∀ handle, (spawnRun defaultSocket req world).1 = .ok handle →
      Returned req workspaceId handle (spawnLog defaultSocket req world)) := by
  obtain ⟨hmay, hreturned⟩ := (spawnInner_touches defaultSocket hworkspace hlabel hcard).runs
    (runs_answered world _ []) (follows_of_forall happart) trivial
  refine ⟨fun past c a hcall => hmay.at hcall, fun handle hok => ?_⟩
  have hreturned : IfOk (Returned req workspaceId) (spawnRun defaultSocket req world).1
    (spawnLog defaultSocket req world) := hreturned
  rw [hok] at hreturned
  exact hreturned

/-- The card's tab with its anchor, an ended run and a pane of the user's. -/
def steadyHerdr : World := fun h c => match c with
  | .tabList _ => .ok [⟨"t1", "w", 1, "card-1"⟩]
  | .paneList _ => .ok [⟨"a1", "w", "t1", none, .idle⟩, ⟨"p1", "w", "t1", none, .idle⟩,
      ⟨"u1", "w", "t1", none, .idle⟩]
  | .agentStart p => .ok ⟨p.paneId, .idle, false, true, none⟩
  | .agentGet paneId => .ok ⟨paneId, .idle, false, true, none⟩
  | c => slowShell h c

/-- A launch of a card that has run before. -/
def nextLaunch : HerdrLaunchPlan :=
  { freshLaunch with ownedTabId := some "t1", durablePaneIds := ["p1"], reclaimablePaneIds := ["p1"]
                     durableAnchorPaneIds := ["a1"] }

/-- The ended run is closed to make room and the anchor once the agent is there, and the
user's pane stays. -/
theorem touches_only_owned_panes_relaunched :
    (∀ paneId ∈ ["p1", "a1"], ∃ past, past <:+ spawnLog "herdr.sock" nextLaunch steadyHerdr ∧
      MayTouch nextLaunch "w" past "card-1" (.paneClose paneId)) ∧
    ∃ handle, handle.paneId = some "p7" ∧
      Returned nextLaunch "w" handle (spawnLog "herdr.sock" nextLaunch steadyHerdr) := by
  obtain ⟨hmay, hreturned⟩ :=
    touches_only_owned_panes "herdr.sock" nextLaunch steadyHerdr "w" "card-1" rfl rfl
    (by decide +kernel) (by decide +kernel)
  refine ⟨fun paneId hpane => ?_, ?_⟩
  · have hclosed : ∀ paneId ∈ ["p1", "a1"],
        paneId ∈ closed (spawnLog "herdr.sock" nextLaunch steadyHerdr) := by
      decide +kernel
    obtain ⟨past, a, hcall⟩ := exists_paneClose (hclosed paneId hpane)
    exact ⟨past, (List.suffix_cons _ _).trans hcall, hmay past _ a hcall⟩
  · have hpane : (spawnRun "herdr.sock" nextLaunch steadyHerdr).1.toOption.bind
        RuntimeHandle.paneId = some "p7" := by
      decide +kernel
    obtain ⟨handle, hok, hpane⟩ := Option.bind_eq_some_iff.mp hpane
    refine ⟨handle, hpane, hreturned handle ?_⟩
    cases hrun : (spawnRun "herdr.sock" nextLaunch steadyHerdr).1 with
    | ok handle' => rw [hrun] at hok; exact congrArg Except.ok (Option.some.inj hok)
    | error e => rw [hrun] at hok; cases hok

end HerdrBoard.Spawner
