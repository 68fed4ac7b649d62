import HerdrBoard.Spawner.Spawn

/-!
# Prompts are delivered at most once

A prompt is sent again only after a typed refusal, and no placement starts over once a
prompt was sent. -/

open Lib Lib.Dialog HerdrBoard.Core HerdrBoard.Daemon

namespace HerdrBoard.Spawner

namespace Call

def isPrompt : Call → Bool
  | .agentPrompt _ => true
  | _ => false

def isStart : Call → Bool
  | .agentStart _ => true
  | _ => false

/-- The calls of a placement attempt; asking the registry is the first of them. -/
def isPlacement : Call → Bool
  | .remembered _ => true
  | .tabList _ => true
  | .paneList _ => true
  | .tabCreate _ => true
  | .tabRename _ => true
  | .paneLayout _ => true
  | .paneSplit _ => true
  | _ => false

/-- Neither starts nor prompts an agent. -/
def IsQuiet (c : Call) : Prop := c.isPrompt = false ∧ c.isStart = false

/-- Quiet, and no part of a placement. -/
def IsIdle (c : Call) : Prop := c.IsQuiet ∧ c.isPlacement = false

end Call

/-! ## What the log says -/

def NoPrompt (h : Log) : Prop := ∀ e ∈ h, e.1.isPrompt = false

/-- An `agent.start` that was refused because the pane was busy. -/
def busyStart : Exchange Answer → Bool
  | ⟨.agentStart _, .error e⟩ => isPaneBusy e
  | _ => false

/-- The busy refusals of `agent.start` since the last placement. -/
def busyStarts (h : Log) : Nat := (h.takeWhile fun e => !e.1.isPlacement).countP busyStart

/-- The same prompt was refused as busy just before, and the same pane is interactive since. -/
def RefusedBefore (p : AgentPromptParams) (h : Log) : Prop :=
  ∃ ms agent error past, isPaneBusy error = true ∧ isInteractive agent = true ∧
    h = ⟨.sleep ms, ()⟩ :: ⟨.agentGet p.target, .ok agent⟩ :: ⟨.agentPrompt p, .error error⟩ :: past

def MayPrompt (p : AgentPromptParams) (h : Log) : Prop := NoPrompt h ∨ RefusedBefore p h

/-- Prompts only where they may be sent, starts only within the retries, placement only
before any prompt. -/
def MayCall (h : Log) : Call → Prop
  | .agentPrompt p => MayPrompt p h
  | .agentStart _ => busyStarts h ≤ AGENT_START_BUSY_RETRIES
  | c => c.isPlacement = true → NoPrompt h

def delivery : Contract Answer where
  rely _ _ := True
  guard := MayCall

theorem mayCall_of_quiet {h : Log} {c : Call} (hquiet : c.IsQuiet)
    (hno : c.isPlacement = true → NoPrompt h) :
    MayCall h c := by
  cases c <;> simp_all [MayCall, Call.IsQuiet, Call.isPrompt, Call.isStart]

theorem mayCall_of_idle {h : Log} {c : Call} (hidle : c.IsIdle) : delivery.guard h c :=
  mayCall_of_quiet hidle.1 fun hplacement => absurd hplacement (Bool.eq_false_iff.mp hidle.2)

theorem NoPrompt.cons {h : Log} {e : Exchange Answer} (hno : NoPrompt h)
    (he : e.1.isPrompt = false) : NoPrompt (e :: h) := by
  intro e' hmem
  rcases List.mem_cons.mp hmem with rfl | hmem
  · exact he
  · exact hno e' hmem

theorem busyStart_of_not_start {e : Exchange Answer} (h : e.1.isStart = false) :
    busyStart e = false := by
  obtain ⟨c, a⟩ := e
  cases c <;> first | rfl | simp [Call.isStart] at h

theorem busyStarts_placement {h : Log} {e : Exchange Answer} (he : e.1.isPlacement = true) :
    busyStarts (e :: h) = 0 := by
  simp [busyStarts, he]

theorem busyStarts_cons {h : Log} {e : Exchange Answer} (he : e.1.isPlacement = false) :
    busyStarts (e :: h) = busyStarts h + if busyStart e then 1 else 0 := by
  simp [busyStarts, he, List.countP_cons]

theorem busyStarts_quiet {h : Log} {e : Exchange Answer} (hquiet : e.1.IsQuiet)
    (hzero : busyStarts h = 0) : busyStarts (e :: h) = 0 := by
  cases hplacement : e.1.isPlacement with
  | true => exact busyStarts_placement hplacement
  | false => rw [busyStarts_cons hplacement, busyStart_of_not_start hquiet.2, hzero]; rfl

/-! ## Quiet calls -/

/-- No prompt was sent, and no start was refused since the last placement. -/
def Fresh (h : Log) : Prop := NoPrompt h ∧ busyStarts h = 0

variable {α : Type} {h : Log}

theorem Only.fresh {x : Spawn α} (hx : x.Only Call.IsQuiet) (hfresh : Fresh h) :
    x.Meets delivery (fun _ => Fresh) h :=
  hx.meets (fun _ _ hquiet hfresh => mayCall_of_quiet hquiet fun _ => hfresh.1)
    (fun _ _ _ hquiet _ hfresh => ⟨hfresh.1.cons hquiet.1, busyStarts_quiet hquiet hfresh.2⟩) hfresh

theorem Only.noPrompt {x : Spawn α} (hx : x.Only Call.IsIdle) (hno : NoPrompt h) :
    x.Meets delivery (fun _ => NoPrompt) h :=
  hx.meets (fun _ _ hidle _ => mayCall_of_idle hidle)
    (fun _ _ _ hidle _ hno => hno.cons hidle.1.1) hno

theorem Only.anywhere {x : Spawn α} (hx : x.Only Call.IsIdle) :
    x.Meets delivery (fun _ _ => True) h :=
  hx.meets (fun _ _ hidle _ => mayCall_of_idle hidle)
    (fun _ _ _ _ _ _ => trivial) trivial

/-! ## Placement is quiet -/

section Only

variable {P : Call → Prop} {paneId : String}

theorem closeOwnedForRetry_only (hclose : P (.paneClose paneId)) :
    (closeOwnedForRetry paneId).Only P := by
  refine Only.bind (only_attempt.mpr (only_query.mpr hclose)) fun closed => ?_
  cases closed with
  | ok => trivial
  | error e => exact Only.ite trivial trivial

theorem closeAfterError_only {what : String} {error : Failure} (hclose : P (.paneClose paneId)) :
    (closeAfterError what paneId error).Only P := by
  refine Only.bind (only_attempt.mpr (only_query.mpr hclose)) fun closed => ?_
  cases closed with
  | ok => trivial
  | error e => exact Only.ite trivial trivial

theorem closeEach_only {panes : List PaneInfo}
    (hclose : ∀ pane ∈ panes, P (.paneClose pane.paneId)) : (closeEach panes).Only P := by
  induction panes with
  | nil => trivial
  | cons pane rest ih =>
      have hrest := ih fun pane hpane => hclose pane (List.mem_cons_of_mem _ hpane)
      exact Only.bind (only_mapError.mpr (closeOwnedForRetry_only (hclose pane (by simp)))) fun _ =>
        hrest

/-- Only listed panes with a reclaimable id are closed. -/
theorem reclaimPriorChildren_only {panes : List PaneInfo} {guarded : String} {ids : List String}
    {protect : Option String} (hclose : ∀ paneId ∈ ids, P (.paneClose paneId)) :
    (reclaimPriorChildren panes guarded ids protect).Only P := by
  refine closeEach_only fun pane hpane => hclose pane.paneId ?_
  have hreclaims := (List.mem_filter.mp hpane).2
  simp only [reclaims, Bool.and_eq_true, List.any_eq_true, beq_iff_eq] at hreclaims
  obtain ⟨⟨-, id, hid, heq⟩, -⟩ := hreclaims
  exact heq ▸ hid

theorem orCleanUp_only {x : Spawn α} (hclose : P (.paneClose paneId)) (hx : x.Only P) :
    (orCleanUp paneId x).Only P := by
  refine Only.bind (only_attempt.mpr hx) fun outcome => ?_
  cases outcome with
  | ok a => trivial
  | error e => exact Only.bind (closeAfterError_only hclose) fun _ => trivial

theorem marked_only {c : Call} {read : Answer c → Except HerdrError α} (hc : P c) :
    (marked (.query c read)).Only P :=
  only_mapError.mpr (only_query.mpr hc)

theorem unmarked_only {c : Call} {read : Answer c → Except HerdrError α} (hc : P c) :
    (unmarked (.query c read)).Only P :=
  only_mapError.mpr (only_query.mpr hc)

theorem context_only {text : String} {x : Spawn α} (hx : x.Only P) :
    (Spawn.context text x).Only P :=
  only_mapError.mpr hx

end Only

section Quiet

variable (workspaceId tabLabel tabId : String) (cwd : Option String) (env : PaneEnv)
    (own : CardOwnership)

theorem splitRunChild_quiet (anchorId : String) :
    (splitRunChild workspaceId tabId anchorId cwd env).Only Call.IsQuiet := by
  refine Only.bind (marked_only ⟨rfl, rfl⟩) fun layout => ?_
  refine Only.bind only_ofExcept fun geometry => ?_
  exact Only.bind (marked_only ⟨rfl, rfl⟩) fun _ => trivial

theorem createCardTab_quiet : (createCardTab workspaceId tabLabel cwd env).Only Call.IsQuiet := by
  refine Only.bind (unmarked_only ⟨rfl, rfl⟩) fun created => ?_
  refine Only.bind (orCleanUp_only ⟨rfl, rfl⟩ (context_only (marked_only ⟨rfl, rfl⟩))) fun _ => ?_
  refine Only.bind (orCleanUp_only ⟨rfl, rfl⟩ (marked_only ⟨rfl, rfl⟩)) fun layout => ?_
  refine Only.bind (orCleanUp_only ⟨rfl, rfl⟩ only_ofExcept) fun geometry => ?_
  exact Only.bind (orCleanUp_only ⟨rfl, rfl⟩ (marked_only ⟨rfl, rfl⟩)) fun _ => trivial

theorem adoptBootstrapTab_quiet (bootstrap : WorkspaceBootstrapHint) :
    (adoptBootstrapTab workspaceId tabLabel bootstrap cwd env).Only Call.IsQuiet := by
  have hverify : (verifyBootstrap workspaceId bootstrap).Only Call.IsQuiet := by
    refine Only.bind (unmarked_only ⟨rfl, rfl⟩) fun tabs => Only.ite ?_ trivial
    exact Only.bind (unmarked_only ⟨rfl, rfl⟩) fun _ => trivial
  refine Only.bind hverify fun root => ?_
  cases root with
  | none => trivial
  | some root =>
      refine Only.bind (Only.bind (context_only (marked_only ⟨rfl, rfl⟩)) fun _ => ?_) fun _ =>
        trivial
      exact Only.bind (context_only (marked_only ⟨rfl, rfl⟩)) fun _ => splitRunChild_quiet ..

theorem allocateInTab_quiet :
    (allocateInTab workspaceId tabLabel cwd env own tabId).Only Call.IsQuiet := by
  have hreclaim {panes : List PaneInfo} {guarded : String} {protect : Option String} :
      (reclaimPriorChildren panes guarded own.reclaimablePaneIds protect).Only Call.IsQuiet :=
    reclaimPriorChildren_only fun _ _ => ⟨rfl, rfl⟩
  refine Only.bind (marked_only ⟨rfl, rfl⟩) fun listed => ?_
  dsimp only
  split
  · exact Only.bind hreclaim fun _ => trivial
  · split
    · exact Only.bind hreclaim fun _ => splitRunChild_quiet ..
    · split
      · refine Only.bind (marked_only ⟨rfl, rfl⟩) fun layout => ?_
        refine Only.bind only_ofExcept fun geometry => Only.bind only_ofExcept fun ratio => ?_
        refine Only.bind (marked_only ⟨rfl, rfl⟩) fun anchor => ?_
        refine Only.bind (context_only (marked_only ⟨rfl, rfl⟩)) fun _ => ?_
        exact Only.bind hreclaim fun _ => splitRunChild_quiet ..
      · exact createCardTab_quiet ..

theorem allocateCardPane_quiet :
    (allocateCardPane workspaceId tabLabel cwd env own).Only Call.IsQuiet := by
  have hadopt : (adoptHinted workspaceId tabLabel cwd env own.bootstrap).Only Call.IsQuiet := by
    cases own.bootstrap with
    | some bootstrap => exact context_only (adoptBootstrapTab_quiet ..)
    | none => trivial
  refine Only.bind (unmarked_only ⟨rfl, rfl⟩) fun tabs => Only.bind hadopt fun adopted => ?_
  split
  · trivial
  · exact allocateInTab_quiet ..
  · exact createCardTab_quiet ..

theorem allocateLegacyPane_quiet :
    (allocateLegacyPane workspaceId tabLabel cwd env).Only Call.IsQuiet := by
  refine Only.bind (unmarked_only ⟨rfl, rfl⟩) fun tabs => ?_
  split
  · exact Only.bind (unmarked_only ⟨rfl, rfl⟩) fun _ => trivial
  · refine Only.bind (marked_only ⟨rfl, rfl⟩) fun listed => ?_
    dsimp only
    split
    · trivial
    · refine Only.bind (marked_only ⟨rfl, rfl⟩) fun layout => ?_
      refine Only.bind (only_mapError.mpr only_ofExcept) fun slot => ?_
      exact Only.bind (marked_only ⟨rfl, rfl⟩) fun _ => trivial

end Quiet

/-! ## Starting the agent -/

theorem busyStarts_refused {p : AgentStartParams} {e : HerdrError} (hbusy : isPaneBusy e = true) :
    busyStarts (⟨.agentStart p, .error e⟩ :: h) = busyStarts h + 1 := by
  rw [busyStarts_cons rfl]
  simp [busyStart, hbusy]

theorem busyStarts_idle {e : Exchange Answer} (hidle : e.1.IsIdle) :
    busyStarts (e :: h) = busyStarts h := by
  rw [busyStarts_cons hidle.2, busyStart_of_not_start hidle.1.2]
  rfl

/-- What a start leaves: no prompt, and a budget for the rest unless the last answer was a
busy refusal. -/
def StartOutcome (r : Except Failure (Except HerdrError AgentInfo × BusyRetryBudget)) (h : Log) :
    Prop :=
  NoPrompt h ∧ ∀ answer budget, r = .ok (answer, budget) →
    (∃ e, answer = .error e ∧ isPaneBusy e = true) ∨
    busyStarts h + budget.retriesRemaining ≤ AGENT_START_BUSY_RETRIES

theorem StartOutcome.budget {answer : Except HerdrError AgentInfo} {budget : BusyRetryBudget}
    (hno : NoPrompt h)
    (hbudget : busyStarts h + budget.retriesRemaining ≤ AGENT_START_BUSY_RETRIES) :
    StartOutcome (.ok (answer, budget)) h := by
  refine ⟨hno, ?_⟩
  rintro answer' budget' ⟨rfl⟩
  exact .inr hbudget

theorem StartOutcome.busy {e : HerdrError} {budget : BusyRetryBudget} (hno : NoPrompt h)
    (hbusy : isPaneBusy e = true) : StartOutcome (.ok (.error e, budget)) h := by
  refine ⟨hno, ?_⟩
  rintro answer' budget' ⟨rfl⟩
  exact .inl ⟨e, rfl, hbusy⟩

theorem busyStarts_answered {p : AgentStartParams} {e : HerdrError} (hbusy : isPaneBusy e = false) :
    busyStarts (⟨.agentStart p, .error e⟩ :: h) = busyStarts h := by
  rw [busyStarts_cons rfl]
  simp [busyStart, hbusy]

theorem agentStartRetryBusy_meets (params : AgentStartParams) (retries backoff : Nat)
    (hno : NoPrompt h) (hbudget : busyStarts h + retries ≤ AGENT_START_BUSY_RETRIES) :
    (agentStartRetryBusy params retries backoff).Meets delivery StartOutcome h := by
  induction retries generalizing backoff h with
  | zero =>
      unfold agentStartRetryBusy
      rw [meets_bind, meets_attempt]
      refine meets_query.mpr ⟨hbudget, fun answer _ => ?_⟩
      cases answer with
      | ok started =>
          exact StartOutcome.budget (hno.cons rfl) (by rw [busyStarts_cons rfl]; exact hbudget)
      | error e =>
          cases hbusy : isPaneBusy e with
          | true =>
              simp only [id, after_ok, hbusy]
              exact StartOutcome.busy (hno.cons rfl) hbusy
          | false =>
              simp only [id, after_ok, hbusy]
              exact StartOutcome.budget (hno.cons rfl)
                (by rw [busyStarts_answered hbusy]; exact hbudget)
  | succ retries ih =>
      unfold agentStartRetryBusy
      rw [meets_bind, meets_attempt]
      refine meets_query.mpr ⟨Nat.le_of_add_right_le hbudget, fun answer _ => ?_⟩
      cases answer with
      | ok started =>
          exact StartOutcome.budget (hno.cons rfl) (by rw [busyStarts_cons rfl]; exact hbudget)
      | error e =>
          cases hbusy : isPaneBusy e with
          | false =>
              simp only [id, after_ok, hbusy]
              exact StartOutcome.budget (hno.cons rfl)
                (by rw [busyStarts_answered hbusy]; exact hbudget)
          | true =>
              simp only [id, after_ok, hbusy, if_true, meets_bind]
              refine meets_ask.mpr ⟨mayCall_of_idle ⟨⟨rfl, rfl⟩, rfl⟩,
                fun _ _ => ih _ ((hno.cons rfl).cons rfl) ?_⟩
              rw [busyStarts_idle ⟨⟨rfl, rfl⟩, rfl⟩, busyStarts_refused hbusy]
              omega

theorem hasCode_ne {code code' : String} {e : HerdrError} (hne : code ≠ code')
    (he : HasCode code e = true) : HasCode code' e = false := by
  cases e with
  | protocol c message =>
      obtain rfl : c = code := by simpa [HasCode] using he
      simpa [HasCode] using hne
  | _ => simp [HasCode] at he

theorem agentStartRetryName_meets (params : AgentStartParams) (fallback : Option String)
    (hfresh : Fresh h) :
    (agentStartRetryName params fallback).Meets delivery (fun _ => NoPrompt) h := by
  refine (agentStartRetryBusy_meets params _ _ hfresh.1 (by rw [hfresh.2, Nat.zero_add])).bind ?_ ?_
  · rintro ⟨started, budget⟩ h' - ⟨hno, hbudget⟩
    cases started with
    | ok agent => exact hno
    | error e =>
        cases htaken : HasCode ERR_AGENT_NAME_TAKEN e with
        | false => simpa [htaken] using hno
        | true =>
            cases fallback with
            | none => simpa [htaken] using hno
            | some name =>
                simp only [htaken, if_true]
                have hleft : busyStarts h' + budget.retriesRemaining ≤
                    AGENT_START_BUSY_RETRIES := by
                  rcases hbudget _ _ rfl with ⟨e', he, hbusy⟩ | hleft
                  · obtain rfl := Except.error.inj he
                    rw [isPaneBusy, hasCode_ne (by decide) htaken] at hbusy
                    cases hbusy
                  · exact hleft
                exact (agentStartRetryBusy_meets _ _ _ hno hleft).bind (fun _ _ _ hout => hout.1)
                  fun _ _ _ hout => hout.1
  · intro e h' _ hout
    exact hout.1

theorem startAgent_meets (req : HerdrLaunchPlan) (kind paneId : String) (args : List String)
    (hfresh : Fresh h) :
    (startAgent req kind paneId args).Meets delivery (fun _ => NoPrompt) h := by
  refine (agentStartRetryName_meets _ _ hfresh).bind (fun started h' _ hno => ?_) fun _ _ _ hno =>
    hno
  exact meets_ofExcept.mpr hno

/-! ## Readiness -/

theorem awaitAgent_idle (paneId waiting timeout : String) (ready : AgentInfo → Bool) (turns : Nat) :
    (awaitAgent paneId waiting timeout ready turns).Only Call.IsIdle := by
  have hget : (Spawn.context waiting (awaitAgent.unmarkedGet paneId)).Only Call.IsIdle :=
    context_only (only_mapError.mpr (only_query.mpr ⟨⟨rfl, rfl⟩, rfl⟩))
  induction turns with
  | zero => exact Only.bind hget fun agent => Only.ite trivial trivial
  | succ turns ih => exact Only.bind hget fun agent => Only.ite trivial ih

theorem awaitReuseReady_idle (paneId : String) : (awaitReuseReady paneId).Only Call.IsIdle :=
  Only.bind (only_ask.mpr ⟨⟨rfl, rfl⟩, rfl⟩) fun _ => awaitAgent_idle ..

theorem awaitInteractiveReady_idle (started : AgentInfo) :
    (awaitInteractiveReady started).Only Call.IsIdle :=
  Only.ite trivial (Only.bind (only_ask.mpr ⟨⟨rfl, rfl⟩, rfl⟩) fun _ => awaitAgent_idle ..)

theorem pollSession_idle (paneId : String) (read : AgentSession → Option (Option String))
    (turns : Nat) : (pollSession paneId read turns).Only Call.IsIdle := by
  have hget : ((Client.agentGet paneId).attempt : Spawn (Except HerdrError AgentInfo)).Only
      Call.IsIdle :=
    only_attempt.mpr (only_query.mpr ⟨⟨rfl, rfl⟩, rfl⟩)
  induction turns with
  | zero =>
      refine Only.bind hget fun agent => ?_
      cases agent <;> trivial
  | succ turns ih =>
      refine Only.bind hget fun agent => ?_
      cases agent with
      | error e => trivial
      | ok agent =>
          dsimp only
          split
          · trivial
          · exact ih

theorem awaitSessionReady_idle (paneId : String) : (awaitSessionReady paneId).Only Call.IsIdle :=
  Only.bind (only_ask.mpr ⟨⟨rfl, rfl⟩, rfl⟩) fun _ => pollSession_idle ..

theorem capture_idle (harness : SelfMinting) (paneId : String) :
    (harness.capture paneId).Only Call.IsIdle :=
  Only.bind (only_ask.mpr ⟨⟨rfl, rfl⟩, rfl⟩) fun _ => pollSession_idle ..

/-! ## Delivering the prompt -/

/-- A race is only reported while no prompt was sent. -/
def RaceOnlyUnprompted (r : Except Failure α) (h : Log) : Prop :=
  ∀ e, r = .error e → isRetryablePlacementRace e = true → NoPrompt h

theorem raceOnlyUnprompted_ok {a : α} : RaceOnlyUnprompted (.ok a) h := nofun

/-- What a computation goes on with does not matter to its error. -/
theorem RaceOnlyUnprompted.error {β : Type} {e : Failure}
    (hrace : RaceOnlyUnprompted (.error e : Except Failure α) h) :
    RaceOnlyUnprompted (.error e : Except Failure β) h := by
  rintro e' ⟨rfl⟩
  exact hrace e rfl

theorem NoPrompt.race {r : Except Failure α} (hno : NoPrompt h) :
    RaceOnlyUnprompted r h := fun _ _ _ => hno

theorem raceOnlyUnprompted_refused {name : String} {e : HerdrError} :
    RaceOnlyUnprompted (.error (.context s!"herdr agent.prompt for {name}" (.herdr e)) : Except
      Failure α) h := by
  rintro e' ⟨rfl⟩ hrace
  simp [isRetryablePlacementRace] at hrace

/-- One send; what it is tried again with is as safe as the send itself. -/
theorem agentPrompt_turn {params : AgentPromptParams} {name : String} {retries backoff : Nat}
    (hmay : MayPrompt params h)
    (hagain : ∀ remaining h', retries = remaining + 1 → MayPrompt params h' →
      (agentPromptWithBusyRetry params name remaining (backoff * 2)).Meets delivery
        RaceOnlyUnprompted h') :
    (agentPromptWithBusyRetry params name retries backoff).Meets delivery RaceOnlyUnprompted h := by
  unfold agentPromptWithBusyRetry
  rw [meets_bind, meets_attempt]
  refine meets_query.mpr ⟨hmay, fun answer _ => ?_⟩
  cases answer with
  | ok => exact raceOnlyUnprompted_ok
  | error e =>
      cases hbusy : isPaneBusy e with
      | false =>
          simp only [id, after_ok, hbusy]
          exact raceOnlyUnprompted_refused
      | true =>
          simp only [id, after_ok, hbusy, if_true, meets_bind, meets_attempt]
          refine meets_query.mpr ⟨mayCall_of_idle ⟨⟨rfl, rfl⟩, rfl⟩, fun seen _ => ?_⟩
          cases seen with
          | error e' => exact raceOnlyUnprompted_refused
          | ok agent =>
              cases hready : isInteractive agent with
              | false =>
                  simp only [id, after_ok, hready]
                  exact raceOnlyUnprompted_refused
              | true =>
                  simp only [id, after_ok, hready, if_true]
                  cases retries with
                  | zero => exact raceOnlyUnprompted_refused
                  | succ remaining =>
                      refine meets_bind.mpr
                        (meets_ask.mpr ⟨mayCall_of_idle ⟨⟨rfl, rfl⟩, rfl⟩, fun _ _ => ?_⟩)
                      exact hagain remaining _ rfl (.inr ⟨backoff, agent, e, h, hbusy, hready, rfl⟩)

theorem agentPromptWithBusyRetry_meets (params : AgentPromptParams) (name : String)
    (retries backoff : Nat) (hmay : MayPrompt params h) :
    (agentPromptWithBusyRetry params name retries backoff).Meets delivery RaceOnlyUnprompted h := by
  induction retries generalizing backoff h with
  | zero => exact agentPrompt_turn hmay nofun
  | succ retries ih =>
      refine agentPrompt_turn hmay fun remaining h' hretries hmay' => ?_
      obtain rfl := Nat.succ.inj hretries
      exact ih _ hmay'

theorem deliverPrompt_meets (paneId text name : String) (hno : NoPrompt h) :
    (deliverPrompt paneId text name).Meets delivery RaceOnlyUnprompted h :=
  agentPromptWithBusyRetry_meets _ _ _ _ (.inl hno)

/-! ## The launches -/

theorem promptWhenReady_meets (req : HerdrLaunchPlan) (paneId : String) (hno : NoPrompt h) :
    (promptWhenReady req paneId).Meets delivery RaceOnlyUnprompted h := by
  unfold promptWhenReady
  cases req.initialPrompt with
  | none => exact raceOnlyUnprompted_ok
  | some text =>
      refine (Only.noPrompt (awaitSessionReady_idle paneId) hno).bind (fun _ h' _ hno => ?_)
        fun _ _ _ hno => hno.race
      exact deliverPrompt_meets _ _ _ hno

theorem promptReusedPane_meets (req : HerdrLaunchPlan) (paneId : String) (hno : NoPrompt h) :
    (promptReusedPane req paneId).Meets delivery RaceOnlyUnprompted h := by
  refine (Only.noPrompt (awaitReuseReady_idle paneId) hno).bind (fun _ h' _ hno => ?_)
    fun _ _ _ hno => hno.race
  exact promptWhenReady_meets req paneId hno

theorem promptMinting_meets (harness : SelfMinting) (req : HerdrLaunchPlan) (paneId : String)
    (hno : NoPrompt h) :
    (promptMinting harness req paneId).Meets delivery RaceOnlyUnprompted h := by
  unfold promptMinting
  cases harness.promptText req with
  | none => exact raceOnlyUnprompted_ok
  | some text => exact deliverPrompt_meets _ _ _ hno

/-- Capturing never fails, so it may follow a prompt. -/
theorem pollSession_meets (paneId : String) (read : AgentSession → Option (Option String))
    (turns : Nat) : (pollSession paneId read turns).Meets delivery RaceOnlyUnprompted h := by
  induction turns generalizing h with
  | zero =>
      refine meets_bind.mpr
        (meets_attempt.mpr (meets_query.mpr ⟨mayCall_of_idle ⟨⟨rfl, rfl⟩, rfl⟩, fun seen _ => ?_⟩))
      cases seen <;> exact raceOnlyUnprompted_ok
  | succ turns ih =>
      refine meets_bind.mpr
        (meets_attempt.mpr (meets_query.mpr ⟨mayCall_of_idle ⟨⟨rfl, rfl⟩, rfl⟩, fun seen _ => ?_⟩))
      cases seen with
      | error e => exact raceOnlyUnprompted_ok
      | ok agent =>
          simp only [id, after_ok]
          split
          · exact raceOnlyUnprompted_ok
          · exact ih

theorem captureAfterPrompt_meets (harness : SelfMinting) (paneId : String)
    (captured : Option String) :
    (captureAfterPrompt harness paneId captured).Meets delivery RaceOnlyUnprompted h := by
  unfold captureAfterPrompt
  split
  · exact meets_bind.mpr
      (meets_ask.mpr ⟨mayCall_of_idle ⟨⟨rfl, rfl⟩, rfl⟩, fun _ _ => pollSession_meets ..⟩)
  · exact raceOnlyUnprompted_ok

theorem launchManagedSelfMinting_meets (harness : SelfMinting) (req : HerdrLaunchPlan)
    (paneId : String) (hfresh : Fresh h) :
    (launchManagedSelfMinting harness req paneId).Meets delivery RaceOnlyUnprompted h := by
  unfold launchManagedSelfMinting
  split
  · exact hfresh.1.race
  · exact hfresh.1.race
  · next kind argv0 startupTail _ _ =>
      refine (startAgent_meets req kind paneId startupTail hfresh).bind (fun started h' _ hno => ?_)
        fun _ _ _ hno => hno.race
      refine (Only.noPrompt (awaitInteractiveReady_idle started) hno).bind (fun _ h' _ hno => ?_)
        fun _ _ _ hno => hno.race
      have hcapture : (captureBeforePrompt harness paneId).Only Call.IsIdle :=
        Only.ite only_pure (capture_idle harness paneId)
      refine (Only.noPrompt hcapture hno).bind (fun captured h' _ hno => ?_) fun _ _ _ hno =>
        hno.race
      refine (promptMinting_meets harness req paneId hno).bind (fun _ h' _ _ => ?_)
        fun _ _ _ hrace => hrace.error
      exact captureAfterPrompt_meets ..

/-- Removing the file after the launch adds no race. -/
theorem withPromptFile_meets {systemPrompt : String} {operation : String → Spawn Unit}
    (hfresh : Fresh h)
    (hoperation : ∀ path h', Fresh h' → (operation path).Meets delivery RaceOnlyUnprompted h') :
    (withPromptFile systemPrompt operation).Meets delivery RaceOnlyUnprompted h := by
  have hwrite : (Spawn.ofLocal (.query (.writePromptFile systemPrompt) id)).Only Call.IsQuiet :=
    only_mapError.mpr (only_query.mpr ⟨rfl, rfl⟩)
  refine (Only.fresh hwrite hfresh).bind (fun path h₁ _ hfresh => ?_) fun _ _ _ hfresh =>
    hfresh.1.race
  refine meets_bind.mpr
    (meets_attempt.mpr ((hoperation path h₁ hfresh).mono fun outcome h₂ _ houtcome => ?_))
  refine meets_bind.mpr (meets_attempt.mpr (meets_mapError.mpr (meets_mapError.mpr
    (meets_query.mpr ⟨mayCall_of_idle ⟨⟨rfl, rfl⟩, rfl⟩, fun removal _ => ?_⟩))))
  cases outcome with
  | ok =>
      cases removal with
      | ok => exact raceOnlyUnprompted_ok
      | error e =>
          -- A local failure is no race.
          rintro e' ⟨rfl⟩ hrace
          simp [isRetryablePlacementRace] at hrace
  | error e =>
      have hlog (hrace : isRetryablePlacementRace e = true) :
          NoPrompt (⟨.removePromptFile path, removal⟩ :: h₂) :=
        (houtcome e rfl hrace).cons rfl
      cases removal with
      | ok =>
          rintro e' ⟨rfl⟩ hrace
          exact hlog hrace
      | error e₂ =>
          rintro e' ⟨rfl⟩ hrace
          exact hlog hrace

theorem launchManagedPromptFile_meets (req : HerdrLaunchPlan) (kind paneId : String)
    (hfresh : Fresh h) :
    (launchManagedPromptFile req kind paneId).Meets delivery RaceOnlyUnprompted h := by
  unfold launchManagedPromptFile
  split
  · exact hfresh.1.race
  · exact hfresh.1.race
  · exact hfresh.1.race
  · refine withPromptFile_meets hfresh fun path h₁ hfresh => ?_
    refine (startAgent_meets req kind paneId _ hfresh).bind (fun started h₂ _ hno => ?_)
      fun _ _ _ hno => hno.race
    refine (Only.noPrompt (awaitInteractiveReady_idle started) hno).bind (fun _ h₃ _ hno => ?_)
      fun _ _ _ hno => hno.race
    exact promptWhenReady_meets req paneId hno

theorem raceOnlyUnprompted_then {x : Spawn Unit}
    (hx : x.Meets delivery RaceOnlyUnprompted h) (a : α) :
    (x >>= fun _ => pure a : Spawn α).Meets delivery RaceOnlyUnprompted h :=
  hx.bind (fun _ _ _ _ => raceOnlyUnprompted_ok) fun _ _ _ hrace => hrace.error

theorem launchManaged_meets (req : HerdrLaunchPlan) (kind paneId : String) (reuse : Bool)
    (hfresh : Fresh h) :
    (launchManaged req kind paneId reuse).Meets delivery RaceOnlyUnprompted h := by
  unfold launchManaged
  split
  · exact raceOnlyUnprompted_then (promptReusedPane_meets req paneId hfresh.1) none
  · split
    · exact launchManagedSelfMinting_meets _ req paneId hfresh
    · exact launchManagedSelfMinting_meets _ req paneId hfresh
    · exact launchManagedSelfMinting_meets _ req paneId hfresh
    · exact raceOnlyUnprompted_then (launchManagedPromptFile_meets req _ paneId hfresh) none
    · exact raceOnlyUnprompted_then (launchManagedPromptFile_meets req _ paneId hfresh) none
    · exact hfresh.1.race

theorem launchConfigured_quiet (socket : String) (req : HerdrLaunchPlan) (paneId : String) :
    (launchConfigured socket req paneId).Only Call.IsQuiet := by
  have hrun (path : String) : (runScript socket paneId path).Only Call.IsQuiet := by
    refine Only.bind (only_attempt.mpr (only_mapError.mpr (only_query.mpr ⟨rfl, rfl⟩))) fun ran =>
      ?_
    cases ran with
    | ok => trivial
    | error e =>
        refine Only.bind (only_attempt.mpr
          (context_only (only_mapError.mpr (only_query.mpr ⟨rfl, rfl⟩)))) fun gone => ?_
        cases gone <;> trivial
  refine Only.ite trivial ?_
  refine Only.bind (context_only (marked_only ⟨rfl, rfl⟩)) fun _ => ?_
  exact Only.bind (only_mapError.mpr (only_query.mpr ⟨rfl, rfl⟩)) fun path => hrun path

theorem launch_meets (req : HerdrLaunchPlan) (site : Site) (owned : OwnedPane) (hfresh : Fresh h) :
    (launch req site owned).Meets delivery RaceOnlyUnprompted h := by
  unfold launch
  split
  · exact launchManaged_meets req _ _ _ hfresh
  · refine (Only.fresh (launchConfigured_quiet site.socket req owned.paneId) hfresh).bind
      (fun _ _ _ _ => raceOnlyUnprompted_ok) fun _ _ _ hfresh => hfresh.1.race

/-! ## The attempts -/

theorem rememberCardTab_quiet (site : Site) (tabId anchorPaneId : String) :
    (rememberCardTab site tabId anchorPaneId).Only Call.IsQuiet :=
  only_ask.mpr ⟨rfl, rfl⟩

theorem rememberOwned_quiet (site : Site) (owned : OwnedPane) :
    (rememberOwned site owned).Only Call.IsQuiet := by
  unfold rememberOwned
  split
  · exact rememberCardTab_quiet ..
  · trivial

theorem rememberBootstrap_quiet (req : HerdrLaunchPlan) (site : Site) :
    (rememberBootstrap req site).Only Call.IsQuiet := by
  unfold rememberBootstrap
  split
  · exact rememberCardTab_quiet ..
  · trivial

theorem settleAnchor_idle (req : HerdrLaunchPlan) (owned : OwnedPane) :
    (settleAnchor req owned).Only Call.IsIdle := by
  unfold settleAnchor
  split
  · refine Only.bind (only_attempt.mpr (closeOwnedForRetry_only ⟨⟨rfl, rfl⟩, rfl⟩)) fun closed => ?_
    cases closed <;> trivial
  · trivial

/-- A placement asks the registry first, so it leaves no refused start behind. -/
theorem place_meets (req : HerdrLaunchPlan) (site : Site) (hno : NoPrompt h) :
    (place req site).Meets delivery (fun _ => Fresh) h := by
  refine meets_bind.mpr (meets_ask.mpr ⟨fun _ => hno, fun remembered _ => ?_⟩)
  have hfresh : Fresh (⟨.remembered site.key, remembered⟩ :: h) :=
    ⟨hno.cons rfl, busyStarts_placement rfl⟩
  refine Only.fresh (context_only (Only.ite ?_ ?_)) hfresh
  · exact allocateCardPane_quiet ..
  · exact allocateLegacyPane_quiet ..

/-- An attempt is safe wherever no prompt was sent, if what it starts over with is. -/
theorem spawnAttempt_meets (req : HerdrLaunchPlan) (site : Site) (first : Bool)
    {again : Spawn RuntimeHandle}
    (hagain : ∀ h', NoPrompt h' → again.Meets delivery (fun _ _ => True) h') (hno : NoPrompt h) :
    (spawnAttempt req site first again).Meets delivery (fun _ _ => True) h := by
  refine meets_bind.mpr
    (meets_attempt.mpr ((place_meets req site hno).mono fun placed h₁ _ hfresh => ?_))
  cases placed with
  | error e =>
      simp only [after_ok]
      split
      · exact hagain _ hfresh.1
      · trivial
  | ok owned =>
      refine (Only.fresh (rememberOwned_quiet site owned) hfresh).bind (fun _ h₂ _ hfresh => ?_)
        fun _ _ _ _ => trivial
      refine meets_bind.mpr
        (meets_attempt.mpr ((launch_meets req site owned hfresh).mono fun outcome h₃ _ hrace => ?_))
      cases outcome with
      | ok captured =>
          exact (Only.anywhere (settleAnchor_idle req owned)).bind (fun _ _ _ _ => trivial)
            fun _ _ _ _ => trivial
      | error e =>
          simp only [after_ok]
          split
          · next hretry =>
              have hno₃ : NoPrompt h₃ := hrace e rfl (Bool.and_eq_true_iff.mp hretry).2
              have hclose : (closeOwnedForRetry owned.paneId).Only Call.IsIdle :=
                closeOwnedForRetry_only ⟨⟨rfl, rfl⟩, rfl⟩
              refine meets_bind.mpr
                (meets_attempt.mpr ((Only.noPrompt hclose hno₃).mono fun closed h₄ _ hno₄ => ?_))
              cases closed with
              | ok => exact hagain _ hno₄
              | error e => trivial
          · exact (Only.anywhere (closeAfterError_only ⟨⟨rfl, rfl⟩, rfl⟩)).bind
              (fun _ _ _ _ => trivial) fun _ _ _ _ => trivial

theorem spawnInner_meets (defaultSocket : String) (req : HerdrLaunchPlan) :
    (spawnInner defaultSocket req).Meets delivery (fun _ _ => True) [] := by
  have hfresh : Fresh [] := ⟨fun _ h => absurd h List.not_mem_nil, rfl⟩
  have hgate : (connectCheckedFor (req.herdrSocket.getD defaultSocket) "pane placement").Only
      Call.IsQuiet :=
    Only.bind (only_mapError.mpr (only_query.mpr ⟨rfl, rfl⟩)) fun _ =>
      only_mapError.mpr (only_query.mpr ⟨rfl, rfl⟩)
  refine (Only.fresh hgate hfresh).bind (fun _ h₁ _ hfresh => ?_) fun _ _ _ _ => trivial
  split
  · trivial
  · trivial
  · refine (Only.fresh (rememberBootstrap_quiet req _) hfresh).bind (fun _ h₂ _ hfresh => ?_)
      fun _ _ _ _ => trivial
    refine spawnAttempt_meets req _ true (fun h' hno => ?_) hfresh.1
    exact spawnAttempt_meets req _ false (fun _ _ => trivial) hno

/-! ## Every sequence of answers -/

theorem spawnLog_mayCall (defaultSocket : String) (req : HerdrLaunchPlan) (world : World) :
    Follows (fun past e => MayCall past e.1) (spawnLog defaultSocket req world) := by
  have hrely (h : Log) : Follows delivery.rely h := by
    induction h with
    | nil => trivial
    | cons e past ih => exact ⟨trivial, ih⟩
  exact ((spawnInner_meets defaultSocket req).runs (runs_answered world _ []) (hrely _) trivial).1

/-- Whatever was sent before a prompt is the same prompt, refused as busy. -/
theorem sent_before {p q : AgentPromptParams} {a : Answer (.agentPrompt p)}
    {b : Answer (.agentPrompt q)} {past : Log}
    (hmay : Follows (fun past e => MayCall past e.1) h) (hsent : ⟨.agentPrompt p, a⟩ :: past <:+ h)
    (hbefore : ⟨.agentPrompt q, b⟩ ∈ past) : q = p ∧ ∃ e, b = .error e ∧ isPaneBusy e = true := by
  induction hlength : past.length using Nat.strong_induction_on generalizing a past with
  | h n ih =>
      rcases hmay.at hsent with hno | ⟨ms, agent, error, older, hbusy, -, rfl⟩
      · exact absurd (hno _ hbefore) (by simp [Call.isPrompt])
      · have hless : older.length < n := by
          simp only [List.length_cons] at hlength
          omega
        have hsuffix : ⟨.agentPrompt p, .error error⟩ :: older <:+ h :=
          ((List.suffix_cons _ _).trans ((List.suffix_cons _ _).trans (List.suffix_cons _ _))).trans
            hsent
        rcases List.mem_cons.mp hbefore with hsleep | hbefore
        · cases hsleep
        · rcases List.mem_cons.mp hbefore with hget | hbefore
          · cases hget
          · rcases List.mem_cons.mp hbefore with hprompt | hbefore
            · cases hprompt
              exact ⟨rfl, error, rfl, hbusy⟩
            · exact ih _ hless hsuffix hbefore rfl

/-- A prompt is sent again only after a busy refusal of the same prompt and a look at the same pane
that shows it interactive, so that only the last one can have been delivered; no placement follows a
prompt; and each placement's starts stay within their retries, over both names. -/
theorem prompt_delivered_at_most_once (defaultSocket : String) (req : HerdrLaunchPlan)
    (world : World) :
    (∀ past p a, ⟨.agentPrompt p, a⟩ :: past <:+ spawnLog defaultSocket req world →
      NoPrompt past ∨ RefusedBefore p past) ∧
    (∀ past p a q b, ⟨.agentPrompt p, a⟩ :: past <:+ spawnLog defaultSocket req world →
      ⟨.agentPrompt q, b⟩ ∈ past → q = p ∧ ∃ e, b = .error e ∧ isPaneBusy e = true) ∧
    (∀ past c a, c.isPlacement = true → ⟨c, a⟩ :: past <:+ spawnLog defaultSocket req world →
    NoPrompt past) ∧ (∀ past p a, ⟨.agentStart p, a⟩ :: past <:+ spawnLog defaultSocket req world →
      busyStarts past ≤ AGENT_START_BUSY_RETRIES) := by
  have hmay := spawnLog_mayCall defaultSocket req world
  refine ⟨fun past p a hsent => hmay.at hsent, fun past p a q b hsent => sent_before hmay hsent, ?_,
    fun past p a hstart => hmay.at hstart⟩
  intro past c a hplacement hcall
  have hguard := hmay.at hcall
  cases c <;> first | exact hguard hplacement | cases hplacement

/-- A shell that is busy five times in each of the two placements, and gone at the sixth start. -/
def slowShell : World := fun h c => match c with
  | .connect _ => .ok ()
  | .requireSupportedProtocol => .ok ()
  | .tabList _ => .ok []
  | .paneList _ => .ok []
  | .tabCreate _ => .ok ⟨⟨s!"t{h.length}", "w", 1, "card-1"⟩,
      ⟨s!"p{h.length}", "w", s!"t{h.length}", none, .unknown⟩⟩
  | .tabRename _ => .ok ()
  | .paneRename _ => .ok ()
  | .paneLayout paneId => .ok [⟨paneId, ⟨100, 40⟩⟩]
  | .paneSplit _ => .ok ⟨s!"p{h.length}", "w", "", none, .unknown⟩
  | .paneClose _ => .ok ()
  | .agentStart _ =>
      .error (.protocol (if busyStarts h = 5 then ERR_PANE_NOT_FOUND else ERR_AGENT_PANE_BUSY) "")
  | .agentGet _ => .error .io
  | .agentPrompt _ => .ok ()
  | .remembered _ => lastRemembered none h
  | .remember _ _ => ()
  | .writePromptFile _ => .ok "prompt"
  | .removePromptFile _ => .ok ()
  | .writeScript _ => .ok "script"
  | .removeScript _ => .ok ()
  | .paneRun _ _ _ => .ok ()
  | .clock => 0
  | .sleep _ => ()

/-- A first launch of a card. -/
def freshLaunch : HerdrLaunchPlan where
  name := "card-1-execute"
  agentKind := some "claude"
  initialPrompt := some "task"
  systemPrompt := some "rules"
  nameFallback := none
  tabLabel := some "card-1"
  ownedTabId := none
  durablePaneIds := []
  reclaimablePaneIds := []
  durableAnchorPaneIds := []
  reusePaneId := none
  cwd := some "/work"
  workspaceRef := some "w"
  herdrSocket := none
  bootstrap := none
  env := [("BOARD_CARD_ID", "1")]
  argv := ["claude"]

/-- Some start came after more busy refusals than one placement retries. -/
def startsBeyond : Log → Bool
  | [] => false
  | ⟨.agentStart _, _⟩ :: past =>
      decide (AGENT_START_BUSY_RETRIES < past.countP busyStart) || startsBeyond past
  | _ :: past => startsBeyond past

theorem exists_start_beyond (hbeyond : startsBeyond h = true) :
    ∃ past p a, ⟨.agentStart p, a⟩ :: past <:+ h ∧
      AGENT_START_BUSY_RETRIES < past.countP busyStart := by
  induction h with
  | nil => cases hbeyond
  | cons e past ih =>
      have hrest (hbeyond : startsBeyond past = true) : ∃ past' p a,
          ⟨.agentStart p, a⟩ :: past' <:+ e :: past ∧
          AGENT_START_BUSY_RETRIES < past'.countP busyStart := by
        obtain ⟨past', p, a, hsuffix, hlt⟩ := ih hbeyond
        exact ⟨past', p, a, hsuffix.trans (List.suffix_cons e past), hlt⟩
      obtain ⟨c, a⟩ := e
      cases c with
      | agentStart p =>
          rcases Bool.or_eq_true_iff.mp hbeyond with hlt | hbeyond
          · exact ⟨past, p, a, List.suffix_rfl, of_decide_eq_true hlt⟩
          · exact hrest hbeyond
      | _ => exact hrest hbeyond

/-- Each placement has its own retries, so a launch can exceed them. -/
theorem two_placements_exceed_retries : ∃ past p a,
    ⟨.agentStart p, a⟩ :: past <:+ spawnLog "herdr.sock" freshLaunch slowShell ∧
      AGENT_START_BUSY_RETRIES < past.countP busyStart :=
  exists_start_beyond (by decide +kernel)

end HerdrBoard.Spawner
