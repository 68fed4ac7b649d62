import HerdrBoard.Core.Capability
import HerdrBoard.Core.Prompt
import HerdrBoard.Daemon.Launch

/-!
# The first prompt of a self-minting harness

The prompt that a fresh pane of codex, opencode or antigravity receives, decided from the
startup argv. -/

open HerdrBoard.Core HerdrBoard.Daemon

namespace HerdrBoard.Spawner

/-- The harnesses that mint their own conversation id. -/
inductive SelfMinting where
  | codex | opencode | antigravity
  deriving DecidableEq

def SelfMinting.name : SelfMinting → String
  | .codex => "codex"
  | .opencode => "opencode"
  | .antigravity => "antigravity"

/-! ## The mint block -/

def MINT_SYSTEM_DELIMITER : String := "## herdr-board system instructions"

def MINT_TASK_DELIMITER : String := "## herdr-board card task"

/-- The system instructions, then the task, each under its own heading. -/
def mintPrompt (systemPrompt task : String) : String :=
  s!"{MINT_SYSTEM_DELIMITER}\n{systemPrompt}\n\n{MINT_TASK_DELIMITER}\n{task}"

/-- Only the tail is inspected: the model after `--model` could itself be spelled
`resume` or `fork`. -/
def isCodexMint (argv : List String) : Bool :=
  !(decide (2 ≤ argv.length) && ["resume", "fork"].contains (argv.getD (argv.length - 2) ""))

/-- Only the tail is inspected: the model after `-m` could itself be spelled `-s`. -/
def isOpencodeMint (argv : List String) : Bool :=
  let tail := argv.drop (argv.length - 3)
  !tail.any fun arg => arg == "-s"

def isAgyMint (argv : List String) : Bool := !argv.any fun arg => arg == "--conversation"

/-- The `agent.prompt` text of a fresh pane: one block for a mint, the task alone otherwise. -/
def promptText (isMint : List String → Bool) (req : HerdrLaunchPlan) : Option String :=
  req.initialPrompt.map fun task =>
    if isMint req.argv then mintPrompt (req.systemPrompt.getD "") task else task

def codexPromptText : HerdrLaunchPlan → Option String := promptText isCodexMint

def opencodePromptText : HerdrLaunchPlan → Option String := promptText isOpencodeMint

def agyPromptText : HerdrLaunchPlan → Option String := promptText isAgyMint

namespace SelfMinting

def isMint : SelfMinting → List String → Bool
  | .codex => isCodexMint
  | .opencode => isOpencodeMint
  | .antigravity => isAgyMint

def promptText : SelfMinting → HerdrLaunchPlan → Option String
  | .codex => codexPromptText
  | .opencode => opencodePromptText
  | .antigravity => agyPromptText

theorem promptText_eq (h : SelfMinting) : h.promptText = Spawner.promptText h.isMint := by
  cases h <;> rfl

/-- The model is spelled like the session token that the harness looks for, and stands
where it looks. -/
def Collides : SelfMinting → EffectiveSettings → Prop
  | .codex, s => (s.model = some "resume" ∨ s.model = some "fork") ∧ s.effort = none ∧
      (s.permissionMode = some "approve-for-me" ∨ s.permissionMode = some "full-access")
  | .opencode, s => s.model = some "-s" ∧ s.effort = none
  | .antigravity, s => s.model = some "--conversation"

end SelfMinting

/-! ## Reading the plan back from the argv -/

theorem isCodexMint_concat (argv : List String) (a b : String) :
    isCodexMint (argv ++ [a, b]) = !(["resume", "fork"].contains a) := by
  simp [isCodexMint]

/-- An approval preset is one flag, or ends in a flag with its value. -/
theorem approvalArgv_cases (permission : String) :
    (∃ flag, Codex.approvalArgv permission = [flag] ∧
      (permission = "approve-for-me" ∨ permission = "full-access")) ∨
    ((permission ≠ "approve-for-me" ∧ permission ≠ "full-access") ∧
      ∃ before value, Codex.approvalArgv permission = before ++ ["--ask-for-approval", value]) := by
  unfold Codex.approvalArgv
  split
  · exact .inr ⟨by decide, ["--sandbox", "workspace-write"], "on-request", rfl⟩
  · exact .inl ⟨_, rfl, .inl rfl⟩
  · exact .inl ⟨_, rfl, .inr rfl⟩
  · next hask happrove hfull => exact .inr ⟨⟨happrove, hfull⟩, [], permission, rfl⟩

theorem codexEffort_ne (effort : Effort) :
    ["resume", "fork"].contains ("model_reasoning_effort=" ++ Codex.effortValue effort) =
    false := by
  cases effort <;> decide

/-- The argv of a codex mint reads as a mint unless the model stands where the session
token would. -/
theorem isCodexMint_mint (s : EffectiveSettings) :
    isCodexMint (["codex"] ++ flagArgv "--model" s.model ++
      flagArgv "-c" (s.effort.map fun e => "model_reasoning_effort=" ++ Codex.effortValue e) ++
      (s.permissionMode.map Codex.approvalArgv).getD []) = true ↔
        ¬SelfMinting.codex.Collides s := by
  simp only [SelfMinting.Collides]
  cases hpermission : s.permissionMode with
  | none =>
      cases heffort : s.effort with
      | none => cases s.model <;> simp [flagArgv, isCodexMint]
      | some effort =>
          have hconcat := isCodexMint_concat (["codex"] ++ flagArgv "--model" s.model) "-c"
            ("model_reasoning_effort=" ++ Codex.effortValue effort)
          simpa [flagArgv] using hconcat
  | some permission =>
      rcases approvalArgv_cases permission with
          ⟨flag, happroval, hpreset⟩ | ⟨hother, before, value, happroval⟩
      · cases heffort : s.effort with
        | none =>
            cases hmodel : s.model with
            | none => simp [flagArgv, isCodexMint, happroval]
            | some model =>
                have hconcat := isCodexMint_concat ["codex", "--model"] model flag
                simp only [List.cons_append, List.nil_append] at hconcat
                simp [flagArgv, happroval, hconcat, hpreset]
        | some effort =>
            have hconcat := isCodexMint_concat (["codex"] ++ flagArgv "--model" s.model ++ ["-c"])
              ("model_reasoning_effort=" ++ Codex.effortValue effort) flag
            rw [codexEffort_ne] at hconcat
            simpa [flagArgv, happroval] using hconcat
      · have hconcat := isCodexMint_concat (["codex"] ++ flagArgv "--model" s.model ++
          flagArgv "-c" (s.effort.map fun e => "model_reasoning_effort=" ++ Codex.effortValue e) ++
          before) "--ask-for-approval" value
        rw [List.append_assoc, ← happroval] at hconcat
        rw [Option.map_some, Option.getD_some, hconcat]
        simp [hother]

theorem opencodePermission_cases (permission : Option String) :
    (permission.map OpenCode.permissionArgv).getD [] = [] ∨
      (permission.map OpenCode.permissionArgv).getD [] = ["--auto"] := by
  cases permission with
  | none => exact .inl rfl
  | some permission =>
      by_cases h : permission = "auto-approve" <;> simp [OpenCode.permissionArgv, h]

/-- The argv of an opencode mint without an effort reads as a mint unless the model is the
session flag. -/
theorem isOpencodeMint_model (s : EffectiveSettings) :
    isOpencodeMint (["opencode"] ++ flagArgv "-m" s.model ++
    (s.permissionMode.map OpenCode.permissionArgv).getD []) = true ↔ s.model ≠ some "-s" := by
  rcases opencodePermission_cases s.permissionMode with h | h <;> rw [h] <;>
    cases s.model <;> simp [flagArgv, isOpencodeMint]

/-- The agent that carries the effort has no session flag. -/
theorem isOpencodeMint_agent (s : EffectiveSettings) :
    isOpencodeMint (["opencode", "--agent", OpenCode.AGENT_NAME] ++
    (s.permissionMode.map OpenCode.permissionArgv).getD []) = true := by
  rcases opencodePermission_cases s.permissionMode with h | h <;> rw [h] <;> decide

theorem agyFlags_clean (s : EffectiveSettings) : "--conversation" ∉
    flagArgv "--effort" (s.effort.bind Agy.effortValue) ++
      (s.permissionMode.map Agy.permissionArgv).getD [] := by
  have heffort : "--conversation" ∉ flagArgv "--effort" (s.effort.bind Agy.effortValue) := by
    cases s.effort with
    | none => decide
    | some effort => cases effort <;> decide
  have hpermission : "--conversation" ∉ (s.permissionMode.map Agy.permissionArgv).getD [] := by
    cases s.permissionMode with
    | none => decide
    | some permission =>
        unfold Agy.permissionArgv
        simp only [Option.map_some, Option.getD_some]
        split <;> decide
  simp [heffort, hpermission]

theorem isAgyMint_iff {argv : List String} : isAgyMint argv = true ↔ "--conversation" ∉ argv := by
  simp only [isAgyMint, Bool.not_eq_true', List.any_eq_false, beq_iff_eq]
  constructor
  · intro h hin
    exact h _ hin rfl
  · rintro h arg harg rfl
    exact h harg

/-- The argv of an antigravity mint reads as a mint unless the model is the conversation flag. -/
theorem isAgyMint_mint (s : EffectiveSettings) : isAgyMint (["agy"] ++ flagArgv "--model" s.model ++
    flagArgv "--effort" (s.effort.bind Agy.effortValue) ++
      (s.permissionMode.map Agy.permissionArgv).getD []) = true ↔
      ¬SelfMinting.antigravity.Collides s := by
  have hclean := agyFlags_clean s
  have hagy : "--conversation" ∉ ["agy"] := by decide
  rw [List.append_assoc, isAgyMint_iff, List.mem_append, List.mem_append]
  simp only [hagy, hclean, false_or, or_false, SelfMinting.Collides]
  cases s.model with
  | none => simp [flagArgv]
  | some model =>
      apply not_congr
      simp [flagArgv, eq_comm]

/-! ## The three harnesses -/

variable {settings : EffectiveSettings} {plan : SessionPlan} {minted : Option String}
  {prompt : String} {inv : HarnessInvocation}

theorem codex_isMint (h : managedCodexInvocation settings plan minted prompt = .ok inv) :
    isCodexMint inv.argv = true ↔ plan = .mint ∧ ¬SelfMinting.codex.Collides settings := by
  cases plan with
  | mint =>
      cases h
      simpa [managedInvocation] using isCodexMint_mint settings
  | resume id =>
      cases h
      change isCodexMint (_ ++ ["resume", id]) = true ↔ _
      rw [isCodexMint_concat]
      simp
  | fork id =>
      cases h
      change isCodexMint (_ ++ ["fork", id]) = true ↔ _
      rw [isCodexMint_concat]
      simp

theorem isOpencodeMint_resume (argv : List String) (id : String) :
    isOpencodeMint (argv ++ ["-s", id]) = false := by
  have hdrop : argv.length - 1 ≤ argv.length := by omega
  simp [isOpencodeMint, List.drop_append_of_le_length hdrop]

theorem isOpencodeMint_fork (argv : List String) (id : String) :
    isOpencodeMint (argv ++ ["-s", id, "--fork"]) = false := by
  simp [isOpencodeMint]

/-- An opencode argv is the startup flags of its settings, then those of its plan. -/
theorem opencode_argv (h : managedOpencodeInvocation settings plan minted prompt = .ok inv) :
    ∃ start flags id, sessionArgv "opencode" plan minted = .ok (flags, id) ∧
      inv.argv = start ++ flags ∧
      (isOpencodeMint start = true ↔ ¬SelfMinting.opencode.Collides settings) := by
  unfold managedOpencodeInvocation at h
  split at h
  · cases h
  · cases h
  · next effort model flags id heffort hmodel hsession =>
      cases h
      refine ⟨_, flags, id, hsession, rfl, ?_⟩
      rw [isOpencodeMint_agent settings]
      simp [SelfMinting.Collides, heffort]
  · next flags id heffort hsession =>
      cases h
      refine ⟨_, flags, id, hsession, rfl, ?_⟩
      rw [isOpencodeMint_model settings]
      simp [SelfMinting.Collides, heffort]

theorem opencode_isMint (h : managedOpencodeInvocation settings plan minted prompt = .ok inv) :
    isOpencodeMint inv.argv = true ↔ plan = .mint ∧ ¬SelfMinting.opencode.Collides settings := by
  obtain ⟨start, flags, id, hsession, hargv, hstart⟩ := opencode_argv h
  rw [hargv]
  cases plan with
  | mint =>
      cases hsession
      simpa using hstart
  | resume id =>
      cases hsession
      simp [isOpencodeMint_resume]
  | fork id =>
      cases hsession
      simp [isOpencodeMint_fork]

theorem antigravity_isMint
    (h : managedAntigravityInvocation settings plan minted prompt = .ok inv) :
    isAgyMint inv.argv = true ↔ plan = .mint ∧ ¬SelfMinting.antigravity.Collides settings := by
  cases plan with
  | mint =>
      cases h
      simpa [managedInvocation] using isAgyMint_mint settings
  | resume id =>
      cases h
      rw [isAgyMint_iff]
      simp [managedInvocation]
  | fork id =>
      cases h
      rw [isAgyMint_iff]
      simp [managedInvocation]

variable {config : List (String × List String)}

/-- An argv reads as a mint exactly for the mint of settings that do not collide. -/
theorem isMint_iff (h : SelfMinting)
    (hinv : buildInvocation h.name config settings plan minted prompt = .ok inv) :
    h.isMint inv.argv = true ↔ plan = .mint ∧ ¬h.Collides settings := by
  cases h with
  | codex => exact codex_isMint hinv
  | opencode => exact opencode_isMint hinv
  | antigravity => exact antigravity_isMint hinv

theorem prompts_of_build (h : SelfMinting)
    (hinv : buildInvocation h.name config settings plan minted prompt = .ok inv) :
    inv.initialPrompt = some prompt ∧
    inv.systemPrompt = some (protocolSystemPrompt settings.systemPrompt) := by
  cases h with
  | codex => cases plan <;> cases hinv <;> exact ⟨rfl, rfl⟩
  | antigravity => cases plan <;> cases hinv <;> exact ⟨rfl, rfl⟩
  | opencode =>
      change managedOpencodeInvocation settings plan minted prompt = .ok inv at hinv
      unfold managedOpencodeInvocation at hinv
      split at hinv <;> cases hinv <;> exact ⟨rfl, rfl⟩

/-- A launch plan that carries an invocation. -/
def carrying (inv : HarnessInvocation) (req : HerdrLaunchPlan) : HerdrLaunchPlan :=
  { req with
    argv := inv.argv, initialPrompt := inv.initialPrompt, systemPrompt := inv.systemPrompt }

theorem promptText_carrying (h : SelfMinting)
    (hinv : buildInvocation h.name config settings plan minted prompt = .ok inv)
    (req : HerdrLaunchPlan) : h.promptText (carrying inv req) =
      some (if h.isMint inv.argv then mintPrompt (protocolSystemPrompt settings.systemPrompt) prompt
        else prompt) := by
  obtain ⟨hinitial, hsystem⟩ := prompts_of_build h hinv
  rw [h.promptText_eq, promptText, carrying, hinitial, hsystem]
  rfl

/-- A mint, and nothing else, gets the system block, exactly when the model of a mint is not taken
for a session. -/
theorem mint_prompt_sent_iff (h : SelfMinting) (config : List (String × List String))
    (settings : EffectiveSettings)
    (plan : SessionPlan) (minted : Option String) (prompt : String) (inv : HarnessInvocation)
    (hinv : buildInvocation h.name config settings plan minted prompt = .ok inv) :
    ((h.isMint inv.argv = true ↔ plan = .mint) ∧
      ∀ req, h.promptText (carrying inv req) =
        some (if plan = .mint then mintPrompt (protocolSystemPrompt settings.systemPrompt) prompt
          else prompt)) ↔
    ¬(plan = .mint ∧ h.Collides settings) := by
  have hmint := isMint_iff h hinv
  simp only [promptText_carrying h hinv]
  constructor
  · rintro ⟨hread, -⟩ ⟨hplan, hcollides⟩
    exact (hmint.mp (hread.mpr hplan)).2 hcollides
  · intro hclear
    have hread : h.isMint inv.argv = true ↔ plan = .mint := by
      rw [hmint]
      exact ⟨And.left, fun hplan => ⟨hplan, fun hcollides => hclear ⟨hplan, hcollides⟩⟩⟩
    refine ⟨hread, fun _ => ?_⟩
    by_cases hplan : plan = .mint
    · rw [if_pos hplan, if_pos (hread.mpr hplan)]
    · rw [if_neg hplan, if_neg fun hyes => hplan (hread.mp hyes)]

/-- A codex card whose model is called `resume`. -/
def resumeCard : Card :=
  { id := 1, boardId := 1, columnId := 1, position := 0, title := "t",
    description := "do it", harness := "codex",
    model := some "resume", effort := none, permissionMode :=
  some "approve-for-me", session := none,
    spaceKind := .workspace, spaceRef := none, spaceCwd := none, status :=
  .idle, awaitingReason := none,
    sessionId := none, createdAt := "", updatedAt := "", archivedAt := none }

def plainColumn : Column :=
  { id := 1, boardId := 1, name := "Todo", position := 0, systemPrompt := none, trigger := .auto,
    onSuccessColumnId := none, onFailColumnId := none, freshSession :=
  false, harnessOverride := none,
    modelOverride := none, effortOverride := none, permissionOverride :=
  none, timeoutMinutes := none }

def resumeSettings : EffectiveSettings :=
  { harness := "codex", model := some "resume", effort := none,
    permissionMode := some "approve-for-me", systemPrompt := none, freshSession := false,
    timeoutMinutes := none }

def resumeInvocation : HarnessInvocation :=
  { agentKind := some "codex", initialPrompt := some "do it",
    systemPrompt := some BOARD_PROTOCOL_TRAILER,
    argv := ["codex", "--model", "resume", "--approve-for-me"], env :=
  [], resultingSessionId := none }

theorem resumeInvocation_built :
    buildInvocation SelfMinting.codex.name [] resumeSettings .mint none "do it" =
      .ok resumeInvocation := rfl

/-- The settings are accepted, and the mint of a card whose model is called `resume` gets
the task alone. -/
theorem mint_without_instructions :
    validateEffectiveSettings (capabilitiesFor { harness := [], agyModels := none }) resumeCard
    plainColumn = .ok () ∧ effectiveSettings resumeCard plainColumn = .ok resumeSettings ∧
    buildInvocation SelfMinting.codex.name [] resumeSettings .mint none "do it" =
    .ok resumeInvocation ∧ isCodexMint resumeInvocation.argv = false ∧
    ∀ req, codexPromptText (carrying resumeInvocation req) = some "do it" :=
  ⟨rfl, rfl, rfl, rfl, fun _ => rfl⟩

theorem mint_prompt_sent_iff_resume :
    ((SelfMinting.codex.isMint resumeInvocation.argv = true ↔ SessionPlan.mint = .mint) ∧
      ∀ req, SelfMinting.codex.promptText (carrying resumeInvocation req) =
        some (if SessionPlan.mint = .mint then
          mintPrompt (protocolSystemPrompt resumeSettings.systemPrompt) "do it" else "do it")) ↔
    ¬(SessionPlan.mint = .mint ∧ SelfMinting.codex.Collides resumeSettings) :=
  mint_prompt_sent_iff .codex [] resumeSettings .mint none "do it" resumeInvocation
    resumeInvocation_built

end HerdrBoard.Spawner
