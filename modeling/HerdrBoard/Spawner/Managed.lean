import HerdrBoard.Spawner.Herdr
import HerdrBoard.Spawner.MintPrompt

/-!
# Launching a managed agent

`agent.start` on the run pane with its retries, the readiness gates, the prompt with its retries,
and the capture of a self-minted session. The delivery confirmation is left out: it runs on a
connection of its own and only reads. -/

open Lib HerdrBoard.Core HerdrBoard.Daemon

namespace HerdrBoard.Spawner

def AGENT_START_TIMEOUT_MS : Nat := 30000
def AGENT_START_BUSY_RETRIES : Nat := 5
def AGENT_START_BUSY_BACKOFF : Nat := 100
def AGENT_PROMPT_BUSY_RETRIES : Nat := 5
def AGENT_PROMPT_BUSY_BACKOFF : Nat := 100
def SESSION_CAPTURE_PROBES : Nat := 5
def SESSION_READY_PROBES : Nat := 5

def ERR_AGENT_NAME_TAKEN : String := "agent_name_taken"
def ERR_AGENT_PANE_BUSY : String := "agent_pane_busy"

def isPaneBusy : HerdrError → Bool := HasCode ERR_AGENT_PANE_BUSY

/-! ## Retries of a busy pane -/

/-- How many retries are left, and how long the next one waits. -/
structure BusyRetryBudget where
  retriesRemaining : Nat
  backoff : Nat

/-- The answer to the last request on a pane that is tried again while it is busy, and the
budget left. -/
def agentStartRetryBusy (params : AgentStartParams) (retriesRemaining backoff : Nat) :
    Spawn (Except HerdrError AgentInfo × BusyRetryBudget) := do
  match ← (Client.agentStart params).attempt with
  | .ok started => return (.ok started, ⟨retriesRemaining, backoff⟩)
  | .error error =>
      if isPaneBusy error then
        match retriesRemaining with
        | 0 => return (.error error, ⟨0, backoff⟩)
        | remaining + 1 => do
            let _ ← .ask (.sleep backoff)
            agentStartRetryBusy params remaining (backoff * 2)
      else return (.error error, ⟨retriesRemaining, backoff⟩)

/-- The fallback name spends what the primary name has left of the budget. -/
def agentStartRetryName (params : AgentStartParams) (fallback : Option String) :
    Spawn (Except HerdrError AgentInfo) := do
  let (started, budget) ← agentStartRetryBusy params AGENT_START_BUSY_RETRIES
      AGENT_START_BUSY_BACKOFF
  match started with
  | .ok agent => return .ok agent
  | .error error =>
      if HasCode ERR_AGENT_NAME_TAKEN error then
        match fallback with
        | some name =>
            return (← agentStartRetryBusy { params with name } budget.retriesRemaining
              budget.backoff).1
        | none => return .error error
      else return .error error

/-- The disappearance of the pane is classified as placement does. -/
def mapStartError (req : HerdrLaunchPlan) (error : HerdrError) : Failure :=
  .context s!"herdr agent.start for {req.name}: {herdrErrorText error}"
    (if isPaneNotFound error then .placementRace error else .herdr error)

/-! ## Readiness -/

def isInteractive (agent : AgentInfo) : Bool := agent.interactiveReady && !agent.launchPending

/-- Ask the agent until `ready` holds or the deadline has passed, which `turns` checks find
in the future. -/
def awaitAgent (paneId waiting timeout : String) (ready : AgentInfo → Bool) : Nat → Spawn Unit
  | 0 => do
      let agent ← Spawn.context waiting (unmarkedGet paneId)
      if ready agent then return ()
      .fail (.message timeout)
  | turns + 1 => do
      let agent ← Spawn.context waiting (unmarkedGet paneId)
      if ready agent then return ()
      awaitAgent paneId waiting timeout ready turns
where
  unmarkedGet (paneId : String) : Spawn AgentInfo := (Client.agentGet paneId).mapError .herdr

def awaitReuseReady (paneId : String) : Spawn Unit := do
  let turns ← .ask .clock
  awaitAgent paneId s!"herdr agent.get while waiting to reuse pane {paneId}"
    s!"timed out waiting for managed agent in pane {paneId} to become quiescent for reuse"
    (fun agent => isInteractive agent && (agent.agentStatus == .idle || agent.agentStatus == .done))
      turns

def awaitInteractiveReady (started : AgentInfo) : Spawn Unit := do
  if isInteractive started then return ()
  let turns ← .ask .clock
  awaitAgent started.paneId s!"herdr agent.get while waiting for {started.paneId}"
    s!"timed out waiting for managed agent in pane {started.paneId} to become interactive"
      isInteractive turns

/-- Ask the agent for its session until `read` decides, an answer fails, or the probes or the time
are used up. -/
def pollSession (paneId : String) (read : AgentSession → Option (Option String)) :
    Nat → Spawn (Option String)
  | 0 => do
      match ← (Client.agentGet paneId).attempt with
      | .error _ => return none
      | .ok agent => return (agent.agentSession.bind read).join
  | turns + 1 => do
      match ← (Client.agentGet paneId).attempt with
      | .error _ => return none
      | .ok agent =>
          match agent.agentSession.bind read with
          | some found => return found
          | none => pollSession paneId read turns

def awaitSessionReady (paneId : String) : Spawn (Option String) := do
  let turns ← .ask .clock
  pollSession paneId (fun session => if trim session.value = "" then none
    else some (some (trim session.value))) (min (SESSION_READY_PROBES - 1) turns)

/-- A session that is reported but cannot be used ends the capture without an id. -/
def captureSelfMintedSession (paneId expectedAgent : String) (expectedSource : Option String) :
    Spawn (Option String) := do
  let turns ← .ask .clock
  pollSession paneId
    (fun session => some (if session.agent == expectedAgent && session.kind == "id" &&
      (expectedSource.isNone || expectedSource == some session.source) &&
        trim session.value != "" then
        some session.value else none))
    (min (SESSION_CAPTURE_PROBES - 1) turns)

/-! ## The prompt -/

/-- Only a typed refusal of a pane that is still interactive is followed by the same
request again. -/
def agentPromptWithBusyRetry (params : AgentPromptParams) (name : String)
    (retriesRemaining backoff : Nat) :
    Spawn Unit := do
  match ← (Client.agentPrompt params).attempt with
  | .ok () => return ()
  | .error error =>
      let refused : Failure := .context s!"herdr agent.prompt for {name}" (.herdr error)
      if isPaneBusy error then
        match ← (Client.agentGet params.target).attempt with
        | .error _ => .fail refused
        | .ok agent =>
            if isInteractive agent then
              match retriesRemaining with
              | 0 => .fail refused
              | remaining + 1 => do
                  let _ ← .ask (.sleep backoff)
                  agentPromptWithBusyRetry params name remaining (backoff * 2)
            else .fail refused
      else .fail refused

def deliverPrompt (paneId text name : String) : Spawn Unit :=
  agentPromptWithBusyRetry { target := paneId, text } name AGENT_PROMPT_BUSY_RETRIES
    AGENT_PROMPT_BUSY_BACKOFF

/-- The task, once the session is known or the wait for it is over. -/
def promptWhenReady (req : HerdrLaunchPlan) (paneId : String) : Spawn Unit := do
  match req.initialPrompt with
  | some text =>
      let _ ← awaitSessionReady paneId
      deliverPrompt paneId text req.name
  | none => return ()

/-! ## The launches -/

def startAgent (req : HerdrLaunchPlan) (kind paneId : String) (args : List String) :
    Spawn AgentInfo := do
  let started ← agentStartRetryName
    { name := req.name, kind, paneId, args, timeoutMs := some AGENT_START_TIMEOUT_MS }
      req.nameFallback
  .ofExcept (started.mapError (mapStartError req))

namespace SelfMinting

/-- The source that the integration reports is pinned except for codex. -/
def expectedSource : SelfMinting → Option String
  | .codex => none
  | .opencode => some "herdr:opencode"
  | .antigravity => some "herdr:antigravity_cli"

/-- Whether the capture waits for the prompt, which makes the integration mint the id. -/
def capturesAfterPrompt : SelfMinting → Bool
  | .codex => false
  | .opencode => true
  | .antigravity => true

def kind : SelfMinting → String
  | .codex => "codex"
  | .opencode => "opencode"
  | .antigravity => "agy"

def capture (h : SelfMinting) (paneId : String) : Spawn (Option String) :=
  captureSelfMintedSession paneId h.kind h.expectedSource

end SelfMinting

def captureBeforePrompt (h : SelfMinting) (paneId : String) : Spawn (Option String) :=
  if h.capturesAfterPrompt then pure none else h.capture paneId

def captureAfterPrompt (h : SelfMinting) (paneId : String) (captured : Option String) :
    Spawn (Option String) :=
  if h.capturesAfterPrompt then h.capture paneId else pure captured

def promptMinting (h : SelfMinting) (req : HerdrLaunchPlan) (paneId : String) : Spawn Unit :=
  match h.promptText req with
  | some text => deliverPrompt paneId text req.name
  | none => pure ()

def launchManagedSelfMinting (h : SelfMinting) (req : HerdrLaunchPlan) (paneId : String) :
    Spawn (Option String) := do
  match req.agentKind, req.argv with
  | none, _ => .fail (.message "managed self-minting invocation has no agent kind")
  | some kind, [] => .fail (.message s!"managed {kind} invocation has empty startup argv")
  | some kind, _ :: startupTail =>
      let started ← startAgent req kind paneId startupTail
      awaitInteractiveReady started
      let captured ← captureBeforePrompt h paneId
      promptMinting h req paneId
      captureAfterPrompt h paneId captured

/-- The prompt file is removed whatever came of the launch. -/
def withPromptFile (systemPrompt : String) (operation : String → Spawn Unit) : Spawn Unit := do
  let path ← Spawn.ofLocal (.query (.writePromptFile systemPrompt) id)
  let outcome ← (operation path).attempt
  let removal ← (Spawn.context "removing managed system-prompt file"
    (Spawn.ofLocal (.query (.removePromptFile path) id))).attempt
  match outcome, removal with
  | .ok (), .ok () => return ()
  | .error error, .ok () => .fail error
  | .ok (), .error removeError => .fail removeError
  | .error error, .error removeError =>
      .fail (.context s!"additionally failed to remove system-prompt file: {removeError.text}"
        error)

def promptFileFlag : String → Option String
  | "pi" => some "--append-system-prompt"
  | "claude" => some "--append-system-prompt-file"
  | _ => none

def launchManagedPromptFile (req : HerdrLaunchPlan) (kind paneId : String) : Spawn Unit := do
  match promptFileFlag kind, req.systemPrompt, req.argv with
  | none, _, _ => .fail (.message s!"unsupported managed harness kind: {kind}")
  | some _, none, _ =>
      .fail (.message s!"managed {kind} invocation is missing system_prompt metadata")
  | some _, some _, [] => .fail (.message s!"managed {kind} invocation has empty startup argv")
  | some flag, some systemPrompt, _ :: startupTail =>
      withPromptFile systemPrompt fun path => do
        let started ← startAgent req kind paneId (startupTail ++ [flag, path])
        awaitInteractiveReady started
        promptWhenReady req paneId

/-- On the pane of the prior run there is nothing to start, only the next task to deliver. -/
def promptReusedPane (req : HerdrLaunchPlan) (paneId : String) : Spawn Unit := do
  awaitReuseReady paneId
  promptWhenReady req paneId

/-- The conversation id that the harness reported, if it mints its own. -/
def launchManaged (req : HerdrLaunchPlan) (kind paneId : String) (reuse : Bool) :
    Spawn (Option String) := do
  if reuse then
    promptReusedPane req paneId
    return none
  match kind with
  | "codex" => launchManagedSelfMinting .codex req paneId
  | "opencode" => launchManagedSelfMinting .opencode req paneId
  | "agy" => launchManagedSelfMinting .antigravity req paneId
  | "pi" =>
      launchManagedPromptFile req kind paneId
      return none
  | "claude" =>
      launchManagedPromptFile req kind paneId
      return none
  | other => .fail (.message s!"unsupported managed harness kind: {other}")

end HerdrBoard.Spawner
