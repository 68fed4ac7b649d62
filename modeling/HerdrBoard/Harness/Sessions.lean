import HerdrBoard.Core.Harness
import HerdrBoard.Core.Protocol

/-!
# The session clause of a persisted argv

A rescue takes the session flags out of a recorded argv and resumes the conversation instead.
-/

namespace HerdrBoard.Core

/-! ## Re-threading a recorded launch -/

/-- The session flags of a harness, and whether each takes a value. -/
def sessionFlags : String → List (String × Bool)
  | "pi" => [("--session-id", true), ("--fork", true)]
  | "claude" => [("--session-id", true), ("--resume", true), ("--fork-session", false)]
  | "codex" => [("resume", true), ("fork", true)]
  | "opencode" => [("-s", true), ("--fork", false)]
  | "antigravity" => [("--conversation", true)]
  | _ => []

/-- Drop each flag, and the token after a flag that takes a value. -/
def stripFlags (flags : List (String × Bool)) : List String → List String
  | [] => []
  | token :: rest =>
      match flags.lookup token with
      | some true =>
          match rest with
          | [] => []
          | _ :: rest => stripFlags flags rest
      | some false => stripFlags flags rest
      | none => token :: stripFlags flags rest

/-- The codex session syntax is a trailing subcommand: the model before it could be
spelled the same. -/
def stripSessionFlags (harnessName : String) (argv : List String) : List String :=
  if harnessName = "codex" then
    if 2 ≤ argv.length ∧ ["resume", "fork"].contains (argv.getD (argv.length - 2) "")
      then argv.take (argv.length - 2)
    else argv
  else stripFlags (sessionFlags harnessName) argv

/-- Whether a harness can re-attach to a conversation it recorded earlier. -/
inductive ResumeSupport where
  | unsupported
  | byConversationId
  deriving DecidableEq, Repr

inductive ResumeError where
  | resumeUnsupported (harness : String)
  | missingResumeSession
  | resumeLegacyArgv (harness : String)
  | harness (e : HarnessError)
  deriving DecidableEq, Repr

def BOARD_RESUME_SESSION_ID : String := "BOARD_RESUME_SESSION_ID"
def BOARD_RESCUE : String := "BOARD_RESCUE"

/-- The argv that resumes: a recorded argv with a `--` carries the task and is refused. -/
def resumeArgv (harnessName : String) (argv : List String) (sessionId : String) :
    Except ResumeError (List String) :=
  if isBuiltinHarness harnessName then
    if argv.any fun arg => arg == "--" then .error (.resumeLegacyArgv harnessName)
    else
      match sessionArgv harnessName (.resume sessionId) none with
      | .error e => .error (.harness e)
      | .ok (session, _) => .ok (stripSessionFlags harnessName argv ++ session)
  else .ok argv

/-- The launch that resumes the conversation of a recorded one, without its task. -/
def resumeInvocation (harnessName : String) (support : ResumeSupport) (persisted : ExecutionSpec)
    (sessionId : String) :
    Except ResumeError ExecutionSpec :=
  if support = .unsupported then .error (.resumeUnsupported harnessName)
  else if isBlank sessionId then .error .missingResumeSession
  else
    match resumeArgv harnessName persisted.argv sessionId with
    | .error e => .error e
    | .ok argv => .ok
        { argv
          env := (persisted.env.filter fun pair => pair.1 != "BOARD_PROMPT") ++
            [(BOARD_RESUME_SESSION_ID, sessionId), (BOARD_RESCUE, "1")]
          agentKind := persisted.agentKind
          initialPrompt := none
          systemPrompt := persisted.systemPrompt }

/-! ## The startup flags -/

/-- The command and the flags of the settings, without the session clause. -/
def startupArgv (settings : EffectiveSettings) : String → List String
  | "pi" => ["pi"] ++ flagArgv "--model" settings.model ++
      flagArgv "--thinking" (settings.effort.map Effort.asStr)
  | "claude" => ["claude"] ++ flagArgv "--model" settings.model ++
      flagArgv "--effort" (settings.effort.map Effort.asStr) ++ flagArgv "--permission-mode"
      settings.permissionMode ++ ["--allowedTools", "Bash(board:*)"]
  | "codex" => ["codex"] ++ flagArgv "--model" settings.model ++
      flagArgv "-c" (settings.effort.map fun e => "model_reasoning_effort=" ++
      Codex.effortValue e) ++ (settings.permissionMode.map Codex.approvalArgv).getD []
  | "opencode" => (if settings.effort.isSome then ["opencode", "--agent", OpenCode.AGENT_NAME]
      else ["opencode"] ++ flagArgv "-m" settings.model) ++
        (settings.permissionMode.map OpenCode.permissionArgv).getD []
  | "antigravity" => ["agy"] ++ flagArgv "--model" settings.model ++
      flagArgv "--effort" (settings.effort.bind Agy.effortValue) ++
      (settings.permissionMode.map Agy.permissionArgv).getD []
  | _ => []

theorem builtin_cases {harness : String} (h : isBuiltinHarness harness = true) :
    harness = "pi" ∨ harness = "claude" ∨ harness = "codex" ∨ harness = "opencode" ∨
    harness = "antigravity" := by
  have hmem : harness ∈ BUILTIN_HARNESSES := List.contains_iff_mem.mp h
  simpa [BUILTIN_HARNESSES] using hmem

variable {prompt : String} {config : List (String × List String)} {settings : EffectiveSettings}
  {plan : SessionPlan} {minted : Option String} {inv : HarnessInvocation}

/-- An argv that is startup flags, then the session clause of the plan. -/
def Threaded (harness : String) (settings : EffectiveSettings) (plan : SessionPlan)
    (minted : Option String) (argv : List String) : Prop :=
  ∃ flags id, sessionArgv harness plan minted = .ok (flags, id) ∧
    argv = startupArgv settings harness ++ flags

theorem pi_threaded (hinv : managedPiInvocation settings plan minted prompt = .ok inv) :
    Threaded "pi" settings plan minted inv.argv := by
  unfold managedPiInvocation at hinv
  split at hinv
  · cases hinv
  · split at hinv
    · cases hinv
    · cases hinv
    · next flags id hsession =>
        cases hinv
        exact ⟨flags, some id, hsession, rfl⟩

theorem claude_threaded (hinv : managedClaudeInvocation settings plan minted prompt = .ok inv) :
    Threaded "claude" settings plan minted inv.argv := by
  unfold managedClaudeInvocation at hinv
  split at hinv
  · cases hinv
  · next flags id hsession =>
      cases hinv
      exact ⟨flags, id, hsession, rfl⟩

theorem codex_threaded (hinv : managedCodexInvocation settings plan minted prompt = .ok inv) :
    Threaded "codex" settings plan minted inv.argv := by
  unfold managedCodexInvocation at hinv
  split at hinv
  · cases hinv
  · next flags id hsession =>
      cases hinv
      exact ⟨flags, id, hsession, rfl⟩

theorem opencode_threaded (hinv : managedOpencodeInvocation settings plan minted prompt = .ok inv) :
    Threaded "opencode" settings plan minted inv.argv := by
  unfold managedOpencodeInvocation at hinv
  split at hinv
  · cases hinv
  · cases hinv
  · next effort model flags id heffort hmodel hsession =>
      cases hinv
      exact ⟨flags, id, hsession, by simp [startupArgv, heffort, managedInvocation]⟩
  · next flags id heffort hsession =>
      cases hinv
      exact ⟨flags, id, hsession, by simp [startupArgv, heffort, managedInvocation]⟩

theorem antigravity_threaded
    (hinv : managedAntigravityInvocation settings plan minted prompt = .ok inv) :
    Threaded "antigravity" settings plan minted inv.argv := by
  unfold managedAntigravityInvocation at hinv
  split at hinv
  · cases hinv
  · next flags id hsession =>
      cases hinv
      exact ⟨flags, id, hsession, rfl⟩

theorem threaded_of_build {harness : String} (hbuiltin : isBuiltinHarness harness = true)
    (hinv : buildInvocation harness config settings plan minted prompt = .ok inv) :
    Threaded harness settings plan minted inv.argv := by
  rcases builtin_cases hbuiltin with rfl | rfl | rfl | rfl | rfl
  · exact pi_threaded hinv
  · exact claude_threaded hinv
  · exact codex_threaded hinv
  · exact opencode_threaded hinv
  · exact antigravity_threaded hinv

end HerdrBoard.Core
