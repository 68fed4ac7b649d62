import HerdrBoard.Daemon.Dispatch
import HerdrBoard.Harness.Resuming

/-!
# Reading a fork back from the argv

When the argv of a queued run tells dispatch whether the run must launch in a fresh pane.
-/

open HerdrBoard.Core
open HerdrBoard.Spawner (opencodePermission_cases approvalArgv_cases agyFlags_clean)

namespace HerdrBoard.Daemon

variable {settings : EffectiveSettings} {plan : SessionPlan} {minted : Option String}
  {flags : List String} {id : Option String}

/-! ## Launches that need a fresh pane -/

/-- A fork needs a fresh pane; antigravity cannot fork, and re-attaches in a fresh pane
on every hop. -/
def NeedsFreshPane (plan : SessionPlan) : String → Prop
  | "antigravity" => plan ≠ .mint
  | _ => ∃ source, plan = .fork source

/-- The text that the harness looks for stands in the argv of a launch that does not need
a fresh pane. -/
def TakenForFork (settings : EffectiveSettings) (plan : SessionPlan) (minted : Option String) :
    String → Prop
  | "pi" => (∀ source, plan ≠ .fork source) ∧
      (settings.model = some "--fork" ∨ plan = .resume "--fork" ∨
        (plan = .mint ∧ minted = some "--fork"))
  | "claude" => (∀ source, plan ≠ .fork source) ∧
      (settings.model = some "--fork-session" ∨ plan = .resume "--fork-session" ∨
        (plan = .mint ∧ minted = some "--fork-session"))
  | "codex" => plan = .mint ∧ settings.model = some "fork" ∧ settings.effort = none ∧
      (settings.permissionMode = some "approve-for-me" ∨
        settings.permissionMode = some "full-access")
  | "opencode" => plan = .resume "--fork" ∧ settings.model = some "-s" ∧ settings.effort = none ∧
      settings.permissionMode ≠ some "auto-approve"
  | "antigravity" => plan = .mint ∧ settings.model = some "--conversation"
  | _ => False

/-! ## The five harnesses -/

theorem any_eq_iff {token : String} {argv : List String} :
    (argv.any fun arg => arg == token) = true ↔ token ∈ argv := by
  simp

theorem pi_startup_fork :
    "--fork" ∈ startupArgv settings "pi" ↔ settings.model = some "--fork" := by
  have heffort (effort : Effort) : "--fork" ≠ effort.asStr := by cases effort <;> decide
  simp only [startupArgv, List.mem_append]
  cases settings.model <;> cases settings.effort <;> simp [flagArgv, heffort, eq_comm]

theorem claude_startup_fork (hmodes : ∀ p, settings.permissionMode = some p →
    p ∈ CLAUDE_PERMISSION_MODES) :
    "--fork-session" ∈ startupArgv settings "claude" ↔ settings.model = some "--fork-session" := by
  have heffort (effort : Effort) : "--fork-session" ≠ effort.asStr := by cases effort <;> decide
  have hmode : "--fork-session" ∉ CLAUDE_PERMISSION_MODES := by decide
  have hpermission : settings.permissionMode ≠ some "--fork-session" := fun h => hmode (hmodes _ h)
  simp only [startupArgv, List.mem_append]
  cases settings.model <;> cases settings.effort <;> cases hset : settings.permissionMode <;>
    simp_all [flagArgv, eq_comm]

theorem pi_reads (hsession : sessionArgv "pi" plan minted = .ok (flags, id)) :
    (argvIsFork "pi" (startupArgv settings "pi" ++ flags) = true ↔ NeedsFreshPane plan "pi") ↔
      ¬TakenForFork settings plan minted "pi" := by
  have hclause : "--fork" ∈ flags ↔ (∃ source, plan = .fork source) ∨ plan = .resume "--fork" ∨
      (plan = .mint ∧ minted = some "--fork") := by
    cases plan <;> cases minted <;> cases hsession <;> simp [eq_comm]
  simp only [argvIsFork, any_eq_iff, List.mem_append, pi_startup_fork, hclause, NeedsFreshPane,
    TakenForFork]
  rw [← not_exists]
  tauto

theorem claude_reads (hmodes : ∀ p, settings.permissionMode = some p → p ∈ CLAUDE_PERMISSION_MODES)
    (hsession : sessionArgv "claude" plan minted = .ok (flags, id)) :
    (argvIsFork "claude" (startupArgv settings "claude" ++ flags) = true ↔
      NeedsFreshPane plan "claude") ↔ ¬TakenForFork settings plan minted "claude" := by
  have hclause : "--fork-session" ∈ flags ↔
      (∃ source, plan = .fork source) ∨ plan = .resume "--fork-session" ∨
      (plan = .mint ∧ minted = some "--fork-session") := by
    cases plan <;> cases minted <;> cases hsession <;> simp [eq_comm]
  simp only [argvIsFork, any_eq_iff, List.mem_append, claude_startup_fork hmodes, hclause,
    NeedsFreshPane, TakenForFork]
  rw [← not_exists]
  tauto

/-- The next to last token of the codex startup is the model in front of a preset of one flag. -/
theorem codex_startup_fork : (startupArgv settings "codex").reverse[1]? = some "fork" ↔
    settings.model = some "fork" ∧ settings.effort = none ∧
      (settings.permissionMode = some "approve-for-me" ∨
        settings.permissionMode = some "full-access") := by
  have hconcat (start : List String) (a b : String) : (start ++ [a, b]).reverse[1]? = some a := by
    simp
  have heffort (effort : Effort) :
      "model_reasoning_effort=" ++ Codex.effortValue effort ≠ "fork" := by
    cases effort <;> decide
  simp only [startupArgv]
  cases hpermission : settings.permissionMode with
  | none =>
      cases settings.effort with
      | none => cases settings.model <;> simp [flagArgv]
      | some effort => simp [flagArgv]
  | some permission =>
      rcases approvalArgv_cases permission with
          ⟨flag, happroval, hpreset⟩ | ⟨hother, before, value, happroval⟩
      · cases settings.effort with
        | none => cases settings.model <;> simp [flagArgv, happroval, hpreset]
        | some effort => simp [flagArgv, happroval, heffort]
      · have hlast := hconcat (["codex"] ++ flagArgv "--model" settings.model ++
          flagArgv "-c" (settings.effort.map fun e => "model_reasoning_effort=" ++
          Codex.effortValue e) ++ before) "--ask-for-approval" value
        rw [List.append_assoc, ← happroval] at hlast
        rw [Option.map_some, Option.getD_some, hlast]
        simp [hother]

theorem codex_reads (hsession : sessionArgv "codex" plan minted = .ok (flags, id)) :
    (argvIsFork "codex" (startupArgv settings "codex" ++ flags) = true ↔
      NeedsFreshPane plan "codex") ↔ ¬TakenForFork settings plan minted "codex" := by
  simp only [argvIsFork, beq_iff_eq, NeedsFreshPane, TakenForFork]
  cases plan with
  | mint =>
      cases hsession
      simp [codex_startup_fork]
  | resume id =>
      cases hsession
      simp
  | fork id =>
      cases hsession
      simp

/-- The startup of opencode ends in `-s` only as the model of no effort and no flag. -/
theorem opencode_startup_last : (startupArgv settings "opencode").reverse[0]? = some "-s" ↔
    settings.model = some "-s" ∧ settings.effort = none ∧
    settings.permissionMode ≠ some "auto-approve" := by
  simp only [startupArgv]
  cases settings.permissionMode with
  | none => cases settings.effort <;> cases settings.model <;> simp [flagArgv, OpenCode.AGENT_NAME]
  | some permission =>
      by_cases hauto : permission = "auto-approve" <;> cases settings.effort <;>
          cases settings.model <;>
        simp [flagArgv, OpenCode.AGENT_NAME, OpenCode.permissionArgv, hauto]

theorem opencode_startup_mint :
    argvIsFork "opencode" (startupArgv settings "opencode") = false := by
  simp only [argvIsFork, startupArgv]
  rcases opencodePermission_cases settings.permissionMode with h | h <;> rw [h] <;>
    cases settings.effort <;> cases settings.model <;> simp [flagArgv, OpenCode.AGENT_NAME]

theorem opencode_reads (hsession : sessionArgv "opencode" plan minted = .ok (flags, id)) :
    (argvIsFork "opencode" (startupArgv settings "opencode" ++ flags) = true ↔
      NeedsFreshPane plan "opencode") ↔ ¬TakenForFork settings plan minted "opencode" := by
  simp only [NeedsFreshPane, TakenForFork]
  cases plan with
  | mint =>
      cases hsession
      simp [opencode_startup_mint]
  | resume id =>
      cases hsession
      simp [argvIsFork, opencode_startup_last]
      tauto
  | fork id =>
      cases hsession
      simp [argvIsFork]

theorem antigravity_reads (hsession : sessionArgv "antigravity" plan minted = .ok (flags, id)) :
    (argvIsFork "antigravity" (startupArgv settings "antigravity" ++ flags) = true ↔
      NeedsFreshPane plan "antigravity") ↔ ¬TakenForFork settings plan minted "antigravity" := by
  have hstartup : "--conversation" ∈ startupArgv settings "antigravity" ↔
      settings.model = some "--conversation" := by
    have hclean := agyFlags_clean settings
    simp only [startupArgv, List.append_assoc, List.mem_append] at hclean ⊢
    rw [or_iff_left hclean]
    cases settings.model <;> simp [flagArgv, eq_comm]
  have hclause : "--conversation" ∈ flags ↔ plan ≠ .mint := by
    cases plan <;> cases hsession <;> simp
  simp only [argvIsFork, any_eq_iff, List.mem_append, hstartup, hclause, NeedsFreshPane,
    TakenForFork]
  tauto

/-! ## Every built-in -/

/-- Dispatch reads from a launch argv whether it needs a fresh pane, and the previous pane is
prompted only if not. -/
structure ForkRead (harness : String) (plan : SessionPlan) (argv : List String) : Prop where
  exact : argvIsFork harness argv = true ↔ NeedsFreshPane plan harness
  fresh : NeedsFreshPane plan harness →
    ∀ (runs : List Run) (run : Run) (session : Option String) (workspaceId : String),
    run.harness = harness → launchArgv run = argv → reusePaneId runs run session workspaceId = none
  reused : ¬NeedsFreshPane plan harness →
    ∀ (runs : List Run) (run : Run) (session : Option String) (workspaceId : String),
    run.harness = harness → launchArgv run = argv → reusePaneId runs run session workspaceId =
      run.sessionId.bind fun sid =>
        ((reuseSource runs run session workspaceId sid).bind Run.herdrPaneId).filter fun pane =>
          pane ≠ ""

theorem forkRead_iff {harness : String} {argv : List String} :
    ForkRead harness plan argv ↔
      (argvIsFork harness argv = true ↔ NeedsFreshPane plan harness) := by
  constructor
  · exact ForkRead.exact
  · intro hexact
    refine ⟨hexact, fun hfresh runs run session workspaceId hharness hargv => ?_,
      fun hreused runs run session workspaceId hharness hargv => ?_⟩
    · rw [reusePaneId, hharness, hargv, if_pos (hexact.mpr hfresh)]
    · rw [reusePaneId, hharness, hargv, if_neg (hexact.not.mpr hreused)]

variable {config : HarnessConfig} {card : Card} {column : Column}
  {templates : List (String × List String)} {prompt : String} {inv : HarnessInvocation}

/-- The argv of a built-in tells a fork exactly unless it holds the fork text in another place. -/
theorem fork_read_iff (hbuiltin : isBuiltinHarness settings.harness = true)
    (haccepted : validateEffectiveSettings (capabilitiesFor config) card column = .ok ())
    (hsettings : effectiveSettings card column = .ok settings)
    (hinv : buildInvocation settings.harness templates settings plan minted prompt = .ok inv) :
    ForkRead settings.harness plan inv.argv ↔
      ¬TakenForFork settings plan minted settings.harness := by
  obtain ⟨_, caps, heffective, hcaps, hfits⟩ := settings_of_accepted haccepted
  obtain rfl := Except.ok.inj (hsettings.symm.trans heffective)
  obtain ⟨flags, _, hsession, hargv⟩ := threaded_of_build hbuiltin hinv
  rw [forkRead_iff, hargv]
  rcases builtin_cases hbuiltin with h | h | h | h | h <;> rw [h] at hsession hcaps ⊢
  · exact pi_reads hsession
  · cases hcaps
    exact claude_reads hfits.permissions hsession
  · exact codex_reads hsession
  · exact opencode_reads hsession
  · exact antigravity_reads hsession

/-! ## A model called `fork` -/

def forkSettings (model : String) : EffectiveSettings :=
  { harness := "codex", model := some model, effort := none, permissionMode := some "full-access",
    systemPrompt := none, freshSession := false, timeoutMinutes := none }

def forkCard (model : String) : Card :=
  { sessionCard with harness := "codex", model := some model, permissionMode := some "full-access" }

def mintInvocation (model : String) : HarnessInvocation :=
  { agentKind := some "codex", initialPrompt := some "do it",
    systemPrompt := some BOARD_PROTOCOL_TRAILER,
    argv := ["codex", "--model", model, "--dangerously-bypass-approvals-and-sandbox"], env := [],
    resultingSessionId := none }

/-- The mint of a codex card whose model is called `fork` reads as a fork. -/
theorem mint_reads_as_fork :
    validateEffectiveSettings (capabilitiesFor { harness := [], agyModels := none })
      (forkCard "fork") Spawner.plainColumn = .ok () ∧
    effectiveSettings (forkCard "fork") Spawner.plainColumn = .ok (forkSettings "fork") ∧
    buildInvocation "codex" []
      (forkSettings "fork") .mint none "do it" = .ok (mintInvocation "fork") ∧
    ¬ForkRead "codex" .mint (mintInvocation "fork").argv := by
  refine ⟨rfl, rfl, rfl, fun h => ?_⟩
  obtain ⟨source, hfork⟩ := h.exact.mp rfl
  cases hfork

theorem fork_read_iff_gpt :
    ForkRead "codex" .mint (mintInvocation "gpt").argv ↔
      ¬TakenForFork (forkSettings "gpt") .mint none "codex" := by
  have haccepted : validateEffectiveSettings (capabilitiesFor { harness := [], agyModels := none })
      (forkCard "gpt") Spawner.plainColumn = .ok () := rfl
  have hbuilt : buildInvocation (forkSettings "gpt").harness []
      (forkSettings "gpt") .mint none "do it" = .ok (mintInvocation "gpt") := rfl
  exact fork_read_iff rfl haccepted rfl hbuilt

end HerdrBoard.Daemon
