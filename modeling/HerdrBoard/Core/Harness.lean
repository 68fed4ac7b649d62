import HerdrBoard.Core.Model

/-!
# Harness adapters

Turn resolved settings, a session plan and a prompt into a process invocation.
-/

namespace HerdrBoard.Core

/-- Built-ins routed without config-defined argv and env reconstruction. -/
def BUILTIN_HARNESSES : List String := ["pi", "claude", "codex", "opencode", "antigravity"]

def isBuiltinHarness (name : String) : Bool := BUILTIN_HARNESSES.contains name

/-- How to thread the harness session for a run. -/
inductive SessionPlan where
  | mint
  | resume (id : String)
  | fork (id : String)
  deriving DecidableEq, Repr

/-- A forced-fresh column, or no prior session, mints; a retry forks; a continuation resumes. -/
def planSession (existing : Option String) (freshSession isRetry : Bool) : SessionPlan :=
  match existing with
  | some id =>
      if ¬freshSession ∧ isRetry then .fork id
      else if ¬freshSession then .resume id
      else .mint
  | none => .mint

structure HarnessInvocation where
  agentKind : Option String
  initialPrompt : Option String
  systemPrompt : Option String
  argv : List String
  env : List (String × String)
  /-- Harness session id that the card and run should persist. -/
  resultingSessionId : Option String
  deriving DecidableEq, Repr

inductive HarnessError where
  | unknownHarness (name : String)
  | missingMintedSession
  | missingForkTargetSession
  | piPermissionModeUnsupported
  | openCodeEffortRequiresModel
  deriving DecidableEq, Repr

/-- Settings resolved for a run: the card's values, overridden by the column's. -/
structure EffectiveSettings where
  harness : String
  model : Option String
  effort : Option Effort
  permissionMode : Option String
  systemPrompt : Option String
  freshSession : Bool
  timeoutMinutes : Option Int
  deriving DecidableEq, Repr

def BOARD_PROTOCOL_TRAILER : String :=
  "## herdr-board protocol\n" ++
  "You are running a herdr-board card ($BOARD_CARD_ID is preset). When this stage's goal " ++
  "is met you MUST finish with exactly two commands: first `board comment \"<your results, " ++
  "files touched, findings>\"`, then `board done --outcome ok`. If the stage goal was NOT " ++
  "met — something failed or you got lost — use `board done --outcome fail --summary " ++
  "\"<why>\"` instead. Always comment before done. Never use `board move`/`cancel`/`retry` " ++
  "on your own card. Finishing or going idle WITHOUT `board done` leaves the card in " ++
  "`awaiting` for human review — a run is never auto-completed."

/-- The column's system prompt, if any, plus the unconditional protocol trailer. -/
def protocolSystemPrompt : Option String → String
  | some sp => sp ++ "\n\n" ++ BOARD_PROTOCOL_TRAILER
  | none => BOARD_PROTOCOL_TRAILER

/-! ## Session flags -/

/-- The startup flags that express a session plan, and the conversation id the run
should persist. -/
def sessionArgv (harnessName : String) (session : SessionPlan) (targetUuid : Option String) :
    Except HarnessError (List String × Option String) :=
  match harnessName, session with
  | "pi", .mint =>
      match targetUuid with
      | some id => .ok (["--session-id", id], some id)
      | none => .error .missingMintedSession
  | "pi", .resume id => .ok (["--session-id", id], some id)
  | "pi", .fork source =>
      match targetUuid with
      | some target => .ok (["--fork", source, "--session-id", target], some target)
      | none => .error .missingForkTargetSession
  | "claude", .mint =>
      match targetUuid with
      | some id => .ok (["--session-id", id], some id)
      | none => .error .missingMintedSession
  | "claude", .resume id => .ok (["--resume", id], some id)
  | "claude", .fork id => .ok (["--resume", id, "--fork-session"], some id)
  | "codex", .mint => .ok ([], none)
  | "codex", .resume id => .ok (["resume", id], some id)
  | "codex", .fork id => .ok (["fork", id], some id)
  | "opencode", .mint => .ok ([], none)
  | "opencode", .resume id => .ok (["-s", id], some id)
  | "opencode", .fork id => .ok (["-s", id, "--fork"], some id)
  | "antigravity", .mint => .ok ([], none)
  | "antigravity", .resume id => .ok (["--conversation", id], some id)
  | "antigravity", .fork id => .ok (["--conversation", id], some id)
  | other, _ => .error (.unknownHarness other)

/-! ## Built-in adapters -/

namespace Codex

def effortValue : Effort → String
  | .off => "none"
  | .minimal => "minimal"
  | .low => "low"
  | .medium => "medium"
  | .high => "high"
  | .xhigh => "xhigh"
  | .max => "max"

def approvalArgv : String → List String
  | "ask-for-approval" => ["--sandbox", "workspace-write", "--ask-for-approval", "on-request"]
  | "approve-for-me" => ["--approve-for-me"]
  | "full-access" => ["--dangerously-bypass-approvals-and-sandbox"]
  | other => ["--ask-for-approval", other]

end Codex

namespace OpenCode

def AGENT_NAME : String := "herdr-board"
def CONFIG_ENV : String := "OPENCODE_CONFIG_CONTENT"

def effortVariant : Effort → String := Codex.effortValue

/-- The text of a character in a JSON string literal. -/
def escapeChar (c : Char) : String :=
  if c = '"' then "\\\""
  else if c = '\\' then "\\\\"
  else if c = '\n' then "\\n"
  else if c = '\r' then "\\r"
  else if c = '\t' then "\\t"
  else if c.toNat = 8 then "\\b"
  else if c.toNat = 12 then "\\f"
  else if c.toNat < 32 then
    "\\u00" ++ (Nat.digitChar (c.toNat / 16)).toString ++ (Nat.digitChar (c.toNat % 16)).toString
  else c.toString

/-- A JSON string literal. -/
def jsonString (s : String) : String := "\"" ++ String.join (s.toList.map escapeChar) ++ "\""

def effortAgentConfig (model : String) (effort : Effort) : String :=
  "\x7b\"agent\":\x7b" ++ jsonString AGENT_NAME ++ ":\x7b\"model\":" ++ jsonString model ++
    ",\"variant\":" ++ jsonString (effortVariant effort) ++ "\x7d\x7d\x7d"

def permissionArgv (permission : String) : List String :=
  if permission = "auto-approve" then ["--auto"] else []

end OpenCode

namespace Agy

def effortValue : Effort → Option String
  | .low => some "low"
  | .medium => some "medium"
  | .high => some "high"
  | _ => none

def permissionArgv : String → List String
  | "sandbox" => ["--sandbox"]
  | "always-proceed" => ["--dangerously-skip-permissions"]
  | _ => []

end Agy

/-- `argv.extend([flag, value])` when the value is set. -/
def flagArgv (flag : String) : Option String → List String
  | some value => [flag, value]
  | none => []

/-- A managed invocation: both prompt channels stay out of the startup argv. -/
def managedInvocation (agentKind : String) (settings : EffectiveSettings) (prompt : String)
    (argv : List String) (env : List (String × String)) (resultingSessionId : Option String) :
    HarnessInvocation where
  agentKind := some agentKind
  initialPrompt := some prompt
  systemPrompt := some (protocolSystemPrompt settings.systemPrompt)
  argv
  env
  resultingSessionId

def managedPiInvocation (settings : EffectiveSettings) (session : SessionPlan)
    (targetUuid : Option String) (prompt : String) : Except HarnessError HarnessInvocation :=
  if settings.permissionMode.isSome then .error .piPermissionModeUnsupported
  else match sessionArgv "pi" session targetUuid with
    | .error e => .error e
    | .ok (_, none) => .error .missingMintedSession
    | .ok (flags, some id) => .ok (managedInvocation "pi" settings prompt
        (["pi"] ++ flagArgv "--model" settings.model ++
          flagArgv "--thinking" (settings.effort.map Effort.asStr) ++ flags) [] (some id))

def managedClaudeInvocation (settings : EffectiveSettings) (session : SessionPlan)
    (mintedUuid : Option String) (prompt : String) : Except HarnessError HarnessInvocation :=
  match sessionArgv "claude" session mintedUuid with
  | .error e => .error e
  | .ok (flags, id) => .ok (managedInvocation "claude" settings prompt
      (["claude"] ++ flagArgv "--model" settings.model ++
        flagArgv "--effort" (settings.effort.map Effort.asStr) ++
        flagArgv "--permission-mode" settings.permissionMode ++
        ["--allowedTools", "Bash(board:*)"] ++ flags) [] id)

def managedCodexInvocation (settings : EffectiveSettings) (session : SessionPlan)
    (mintedUuid : Option String) (prompt : String) : Except HarnessError HarnessInvocation :=
  match sessionArgv "codex" session mintedUuid with
  | .error e => .error e
  | .ok (flags, id) => .ok (managedInvocation "codex" settings prompt
      (["codex"] ++ flagArgv "--model" settings.model ++
        flagArgv "-c" (settings.effort.map fun e => "model_reasoning_effort=" ++
          Codex.effortValue e) ++
        (settings.permissionMode.map Codex.approvalArgv).getD [] ++ flags) [] id)

def managedOpencodeInvocation (settings : EffectiveSettings) (session : SessionPlan)
    (mintedUuid : Option String) (prompt : String) : Except HarnessError HarnessInvocation :=
  match settings.effort, settings.model, sessionArgv "opencode" session mintedUuid with
  | some _, none, _ => .error .openCodeEffortRequiresModel
  | _, _, .error e => .error e
  | some effort, some model, .ok (flags, id) => .ok (managedInvocation "opencode" settings prompt
      (["opencode", "--agent", OpenCode.AGENT_NAME] ++
        (settings.permissionMode.map OpenCode.permissionArgv).getD [] ++ flags)
      [(OpenCode.CONFIG_ENV, OpenCode.effortAgentConfig model effort)] id)
  | none, model, .ok (flags, id) => .ok (managedInvocation "opencode" settings prompt
      (["opencode"] ++ flagArgv "-m" model ++
        (settings.permissionMode.map OpenCode.permissionArgv).getD [] ++ flags) [] id)

def managedAntigravityInvocation (settings : EffectiveSettings) (session : SessionPlan)
    (mintedUuid : Option String) (prompt : String) : Except HarnessError HarnessInvocation :=
  match sessionArgv "antigravity" session mintedUuid with
  | .error e => .error e
  | .ok (flags, id) => .ok (managedInvocation "agy" settings prompt
      (["agy"] ++ flagArgv "--model" settings.model ++
        flagArgv "--effort" (settings.effort.bind Agy.effortValue) ++
        (settings.permissionMode.map Agy.permissionArgv).getD [] ++ flags) [] id)

/-! ## Config-defined harnesses -/

/-- Substitute one placeholder; an element with an unset placeholder is dropped. -/
def substitutePlaceholder (placeholder : String) (value : Option String) (item : String) :
    Option String :=
  if (item.splitOn placeholder).length ≤ 1 then some item
  else value.map (item.replace placeholder)

def substituteTemplate (template : List String) (settings : EffectiveSettings) : List String :=
  template.filterMap fun item =>
    ((substitutePlaceholder "\x7bmodel\x7d" settings.model item).bind
      (substitutePlaceholder "\x7beffort\x7d" (settings.effort.map Effort.asStr))).bind
      (substitutePlaceholder "\x7bpermission_mode\x7d" settings.permissionMode)

/-- Build a full invocation with a built-in adapter or a config-defined argv template. -/
def buildInvocation (harnessName : String) (harnessConfig : List (String × List String))
    (settings : EffectiveSettings) (session : SessionPlan) (mintedUuid : Option String)
    (prompt : String) :
    Except HarnessError HarnessInvocation :=
  if harnessName = "pi" then managedPiInvocation settings session mintedUuid prompt
  else if harnessName = "claude" then managedClaudeInvocation settings session mintedUuid prompt
  else if harnessName = "codex" then managedCodexInvocation settings session mintedUuid prompt
  else if harnessName = "opencode" then managedOpencodeInvocation settings session mintedUuid prompt
  else if harnessName = "antigravity" then managedAntigravityInvocation settings session
    mintedUuid prompt
  else match harnessConfig.lookup harnessName with
    | none => .error (.unknownHarness harnessName)
    | some template => .ok
        { agentKind := none
          initialPrompt := none
          systemPrompt := none
          argv := substituteTemplate template settings
          env := [("BOARD_PROMPT", prompt),
            ("BOARD_SYSTEM_PROMPT", protocolSystemPrompt settings.systemPrompt)]
          resultingSessionId := none }

end HerdrBoard.Core
