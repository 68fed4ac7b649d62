import HerdrBoard.Core.AgyCatalog
import HerdrBoard.Daemon.Dispatch
import HerdrBoard.Harness.Accepted
import Mathlib.Tactic.IntervalCases

/-!
# What a launch carries

The model, effort and permission mode that a launch of a built-in is told, read back from its argv
and environment. -/

namespace HerdrBoard.Core

/-! ## String literals -/

section Literals

open OpenCode (escapeChar)

def hexDigit (c : Char) : Nat := if c.isDigit then c.toNat - '0'.toNat else c.toNat - 'a'.toNat + 10

/-- The character after a backslash. -/
def unescapeChar : Char → Char
  | 'n' => '\n'
  | 'r' => '\r'
  | 't' => '\t'
  | 'b' => Char.ofNat 8
  | 'f' => Char.ofNat 12
  | c => c

/-- The literal up to its closing quote, and what follows. -/
def readLiteral : List Char → List Char × List Char
  | [] => ([], [])
  | c :: rest =>
      if c = '"' then ([], rest)
      else if c = '\\' then
        match rest with
        | 'u' :: _ :: _ :: hi :: lo :: rest =>
            let (text, after) := readLiteral rest
            (Char.ofNat (16 * hexDigit hi + hexDigit lo) :: text, after)
        | escaped :: rest =>
            let (text, after) := readLiteral rest
            (unescapeChar escaped :: text, after)
        | [] => ([], [])
      else
        let (text, after) := readLiteral rest
        (c :: text, after)

theorem readLiteral_escape (c : Char) (rest : List Char) :
    readLiteral ((escapeChar c).toList ++ rest) =
      (c :: (readLiteral rest).1, (readLiteral rest).2) := by
  unfold escapeChar
  split
  · next h => subst h; simp [readLiteral, unescapeChar]
  split
  · next h => subst h; simp [readLiteral, unescapeChar]
  split
  · next h => subst h; simp [readLiteral, unescapeChar]
  split
  · next h => subst h; simp [readLiteral, unescapeChar]
  split
  · next h => subst h; simp [readLiteral, unescapeChar]
  have hchar (n : Nat) (h : c.toNat = n) : c = Char.ofNat n := by rw [← h, Char.ofNat_toNat]
  split
  · next h => rw [hchar 8 h]; simp [readLiteral, unescapeChar]
  split
  · next h => rw [hchar 12 h]; simp [readLiteral, unescapeChar]
  split
  · next hlt =>
      generalize hn : c.toNat = n at hlt ⊢
      rw [hchar n hn]
      interval_cases n <;> simp [readLiteral] <;> rfl
  · next hquote hslash _ _ _ _ _ _ =>
      rw [Char.toString_eq_singleton, String.toList_singleton, List.singleton_append,
        readLiteral.eq_def]
      simp only [hquote, hslash, if_false]

theorem readLiteral_escaped (text rest : List Char) :
    readLiteral (text.flatMap (fun c => (escapeChar c).toList) ++ '"' :: rest) = (text, rest) := by
  induction text with
  | nil =>
      rw [List.flatMap_nil, List.nil_append, readLiteral.eq_def]
      rfl
  | cons c text ih => rw [List.flatMap_cons, List.append_assoc, readLiteral_escape, ih]

theorem jsonString_toList (s : String) : (OpenCode.jsonString s).toList =
    '"' :: (s.toList.flatMap (fun c => (escapeChar c).toList) ++ ['"']) := by
  simp [OpenCode.jsonString, String.toList_join, List.flatMap_map]

end Literals

/-! ## Reading a launch -/

/-- What a launch is told of the settings of its run. -/
structure Carried where
  model : Option String
  effort : Option Effort
  permissionMode : Option String
  deriving DecidableEq

/-- The value after a flag at the front, and what follows. -/
def takeFlag (flag : String) : List String → Option String × List String
  | token :: value :: rest =>
      if token = flag then (some value, rest) else (none, token :: value :: rest)
  | argv => (none, argv)

/-- The effort with the given spelling. -/
def effortSpelled {α : Type} [DecidableEq α] (spelling : Effort → α) (text : α) : Option Effort :=
  ALL_EFFORTS.find? fun effort => spelling effort = text

def codexEffortArg (effort : Effort) : String :=
  "model_reasoning_effort=" ++ Codex.effortValue effort

/-- The preset of the codex approval flags. -/
def codexPreset : List String → Option String
  | "--sandbox" :: _ => some "ask-for-approval"
  | "--approve-for-me" :: _ => some "approve-for-me"
  | "--dangerously-bypass-approvals-and-sandbox" :: _ => some "full-access"
  | _ => none

def agyPreset : List String → Option String
  | "--sandbox" :: _ => some "sandbox"
  | "--dangerously-skip-permissions" :: _ => some "always-proceed"
  | _ => none

/-- The text of an agent config before its model. -/
def agentHead : String :=
  "\x7b\"agent\":\x7b" ++ OpenCode.jsonString OpenCode.AGENT_NAME ++ ":\x7b\"model\":"

/-- The text of an agent config after its model. -/
def agentTail (effort : Effort) : String :=
  ",\"variant\":" ++ OpenCode.jsonString (OpenCode.effortVariant effort) ++ "\x7d\x7d\x7d"

/-- The model and the effort of an agent config. -/
def readAgentConfig (text : String) : String × Option Effort :=
  let (model, rest) := readLiteral ((text.toList.drop agentHead.length).drop 1)
  (String.ofList model, effortSpelled (fun effort => (agentTail effort).toList) rest)

def readOpencode (argv : List String) (env : List (String × String)) : Carried :=
  let preset (rest : List String) : Option String :=
    if rest.head? = some "--auto" then some "auto-approve" else none
  match takeFlag "--agent" (argv.drop 1) with
  | (some _, rest) =>
      let config := (env.lookup OpenCode.CONFIG_ENV).map readAgentConfig
      { model := config.map Prod.fst, effort := config.bind Prod.snd,
        permissionMode := preset rest }
  | (none, argv) =>
      let (model, rest) := takeFlag "-m" argv
      { model, effort := none, permissionMode := preset rest }

/-- What the launch of a built-in is told. -/
def readLaunch (harness : String) (inv : HarnessInvocation) : Carried :=
  let (model, rest) := takeFlag "--model" (inv.argv.drop 1)
  match harness with
  | "pi" =>
      { model, effort := (takeFlag "--thinking" rest).1.bind (effortSpelled Effort.asStr),
        permissionMode := none }
  | "claude" =>
      let (effort, rest) := takeFlag "--effort" rest
      { model, effort := effort.bind (effortSpelled Effort.asStr),
        permissionMode := (takeFlag "--permission-mode" rest).1 }
  | "codex" =>
      let (effort, rest) := takeFlag "-c" rest
      { model, effort := effort.bind (effortSpelled codexEffortArg),
        permissionMode := codexPreset rest }
  | "antigravity" =>
      let (effort, rest) := takeFlag "--effort" rest
      { model, effort := effort.bind (effortSpelled Effort.asStr),
        permissionMode := agyPreset rest }
  | _ => readOpencode inv.argv inv.env

/-- The settings that a launch of the harness can be told: the opencode default is to
say nothing. -/
def EffectiveSettings.carried (settings : EffectiveSettings) : Carried :=
  { model := settings.model
    effort := settings.effort
    permissionMode := settings.permissionMode.filter fun mode =>
      !(settings.harness == "opencode" && mode == "default") }

theorem takeFlag_other {flag : String} {argv : List String} (h : argv.head? ≠ some flag) :
    takeFlag flag argv = (none, argv) := by
  match argv with
  | [] => rfl
  | [_] => rfl
  | token :: value :: rest =>
      have hne : token ≠ flag := fun heq => h (congrArg some heq)
      rw [takeFlag, if_neg hne]

theorem takeFlag_flagArgv {flag : String} {value : Option String} {rest : List String}
    (h : rest.head? ≠ some flag) : takeFlag flag (flagArgv flag value ++ rest) = (value, rest) := by
  cases value with
  | some value => simp [flagArgv, takeFlag]
  | none => exact takeFlag_other h

theorem effortSpelled_self {α : Type} [DecidableEq α] {spelling : Effort → α}
    (h : spelling.Injective) (effort : Effort) :
    effortSpelled spelling (spelling effort) = some effort := by
  cases effort <;> simp [effortSpelled, ALL_EFFORTS, h.eq_iff]

theorem readAgentConfig_effortAgentConfig (model : String) (effort : Effort) :
    readAgentConfig (OpenCode.effortAgentConfig model effort) = (model, some effort) := by
  have htail : (fun effort => (agentTail effort).toList).Injective := by
    intro e e'
    cases e <;> cases e' <;> decide
  have hassoc (t a b c : String) : t ++ a ++ b ++ c = t ++ (a ++ b ++ c) := by
    rw [String.append_assoc, String.append_assoc, String.append_assoc]
  have htext : OpenCode.effortAgentConfig model effort = agentHead ++ OpenCode.jsonString model ++
      agentTail effort :=
    hassoc _ _ _ _
  have hdrop :
      (agentHead.toList ++ ((OpenCode.jsonString model).toList ++ (agentTail effort).toList)).drop
      agentHead.length = (OpenCode.jsonString model).toList ++ (agentTail effort).toList :=
    List.drop_left
  have hread : readAgentConfig (OpenCode.effortAgentConfig model effort) =
      (String.ofList model.toList,
      effortSpelled (fun effort => (agentTail effort).toList) (agentTail effort).toList) := by
    simp only [readAgentConfig, htext, String.toList_append, List.append_assoc]
    rw [hdrop, jsonString_toList, List.cons_append, List.drop_one, List.tail_cons,
      List.append_assoc, List.singleton_append, readLiteral_escaped]
  rw [hread, String.ofList_toList, effortSpelled_self htail effort]

/-! ## The configuration -/

/-- A config-defined harness and the argv template it launches. -/
structure ConfiguredHarness extends HarnessDef where
  argv : List String

structure Configuration where
  harness : List (String × ConfiguredHarness)
  agyModels : Option (List ModelInfo)
  /-- The catalog parser retains the efforts that agy can be asked for. -/
  agyEfforts : ∀ models, agyModels = some models →
    ∀ m ∈ models, ∀ e ∈ m.efforts, e ∈ ANTIGRAVITY_DEFAULT_EFFORTS

/-- The configuration of a daemon whose agy printed this, if it printed JSON. -/
def Configuration.live (harness : List (String × ConfiguredHarness)) (printed : Option Value) :
    Configuration where
  harness
  agyModels := printed.bind AgyCatalog.parseModels
  agyEfforts models hmodels := by
    obtain ⟨root, -, hparsed⟩ := Option.bind_eq_some_iff.mp hmodels
    exact AgyCatalog.efforts_of_parsed hparsed

def Configuration.capabilities (c : Configuration) : CapabilitiesFor :=
  capabilitiesFor
    { harness := c.harness.map fun p => (p.1, p.2.toHarnessDef), agyModels := c.agyModels }

def Configuration.templates (c : Configuration) : List (String × List String) :=
  c.harness.map fun p => (p.1, p.2.argv)

variable {config : Configuration} {caps : HarnessCapabilities} {settings : EffectiveSettings}
    {plan : SessionPlan}
  {minted : Option String} {prompt : String} {inv : HarnessInvocation} {flags : List String}
  {id : Option String}

theorem lookup_map_snd {α β : Type} (f : α → β) (name : String) (entries : List (String × α)) :
    (entries.map fun p => (p.1, f p.2)).lookup name = (entries.lookup name).map f := by
  induction entries with
  | nil => rfl
  | cons entry entries ih =>
      obtain ⟨key, value⟩ := entry
      simp only [List.map_cons, List.lookup_cons, ih]
      split <;> rfl

/-- A harness with capabilities that is no built-in has a template. -/
theorem template_of_capabilities {harness : String} (hother : isBuiltinHarness harness = false)
    (hcaps : config.capabilities harness = some caps) :
    ∃ configured, config.harness.lookup harness = some configured ∧
      config.templates.lookup harness = some configured.argv := by
  have hbuiltin : harness ∉ BUILTIN_HARNESSES := by
    simpa [isBuiltinHarness] using hother
  simp only [BUILTIN_HARNESSES, List.mem_cons, List.not_mem_nil, or_false, not_or] at hbuiltin
  obtain ⟨hpi, hclaude, hcodex, hopencode, hantigravity⟩ := hbuiltin
  have hlookup : (config.harness.lookup harness).map (fun c => c.toHarnessDef.capabilities) =
      some caps := by
    unfold Configuration.capabilities capabilitiesFor at hcaps
    split at hcaps
    · contradiction
    · contradiction
    · contradiction
    · contradiction
    · contradiction
    · rw [lookup_map_snd, Option.map_map] at hcaps
      exact hcaps
  obtain ⟨configured, hconfigured, -⟩ := Option.map_eq_some_iff.mp hlookup
  refine ⟨configured, hconfigured, ?_⟩
  rw [Configuration.templates, lookup_map_snd, hconfigured]
  rfl

/-! ## What the values of accepted settings can be -/

theorem agy_effort_value (hcaps : config.capabilities "antigravity" = some caps)
    (hfits : Fits caps settings.model settings.effort settings.permissionMode) :
    settings.effort.bind Agy.effortValue = settings.effort.map Effort.asStr := by
  cases heffort : settings.effort with
  | none => rfl
  | some effort =>
      have hladder : effort ∈ ANTIGRAVITY_DEFAULT_EFFORTS := by
        have hmem := hfits.efforts effort heffort
        cases hcaps
        refine mem_of_effortsFor (fun m hm => ?_) (fun e he => he) hmem
        cases hcatalog : config.agyModels with
        | none => simp [hcatalog] at hm
        | some models =>
            simp only [hcatalog, Option.getD_some] at hm
            exact config.agyEfforts models hcatalog m hm
      revert hladder
      cases effort <;> decide

/-! ## Reading back -/

theorem head_flagArgv {flag head : String} {value : Option String} {rest : List String}
    (hflag : flag ≠ head)
    (hrest : rest.head? ≠ some head) : (flagArgv flag value ++ rest).head? ≠ some head := by
  cases value with
  | none => exact hrest
  | some value => simpa [flagArgv] using hflag

/-- A clause begins with a session flag. -/
theorem head_clause {harness head : String} (hbuiltin : isBuiltinHarness harness = true)
    (hsession : sessionArgv harness plan minted = .ok (flags, id))
    (hhead : head ∉ ["--session-id", "--fork", "--resume", "resume", "fork", "-s",
    "--conversation"]) : flags.head? ≠ some head := by
  simp only [List.mem_cons, List.not_mem_nil, or_false, not_or] at hhead
  rcases builtin_cases hbuiltin with rfl | rfl | rfl | rfl | rfl <;> cases plan <;> cases minted <;>
    cases hsession <;> simp [hhead, eq_comm]

theorem asStr_injective : Effort.asStr.Injective := by
  intro e e'
  cases e <;> cases e' <;> decide

theorem effort_read {spelling : Effort → String} (h : spelling.Injective) (effort : Option Effort) :
    (effort.map spelling).bind (effortSpelled spelling) = effort := by
  cases effort with
  | none => rfl
  | some effort => exact effortSpelled_self h effort

theorem pi_read (hpermission : settings.permissionMode = none)
    (hinv : managedPiInvocation settings plan minted prompt = .ok inv) :
    readLaunch "pi" inv = ⟨settings.model, settings.effort, settings.permissionMode⟩ := by
  obtain ⟨flags, id, hsession, hargv⟩ := pi_threaded hinv
  have hthinking : flags.head? ≠ some "--thinking" := head_clause rfl hsession (by decide)
  have hmodel : flags.head? ≠ some "--model" := head_clause rfl hsession (by decide)
  simp only [readLaunch, hargv, startupArgv, List.append_assoc, List.cons_append, List.nil_append,
    List.drop_succ_cons, List.drop_zero]
  rw [takeFlag_flagArgv (head_flagArgv (by decide) hmodel), takeFlag_flagArgv hthinking,
    effort_read asStr_injective, hpermission]

theorem claude_read (hinv : managedClaudeInvocation settings plan minted prompt = .ok inv) :
    readLaunch "claude" inv = ⟨settings.model, settings.effort, settings.permissionMode⟩ := by
  obtain ⟨flags, id, hsession, hargv⟩ := claude_threaded hinv
  simp only [readLaunch, hargv, startupArgv, List.append_assoc, List.cons_append, List.nil_append,
    List.drop_succ_cons, List.drop_zero]
  rw [takeFlag_flagArgv (head_flagArgv (by decide) (head_flagArgv (by decide) (by simp))),
    takeFlag_flagArgv (head_flagArgv (by decide) (by simp)), takeFlag_flagArgv (by simp),
      effort_read asStr_injective]

/-- The presets of codex are told apart by their flags. -/
theorem codexPreset_read {permission : Option String}
    (hmodes : ∀ p, permission = some p → p ∈ CODEX_PERMISSION_MODES)
    (hsession : sessionArgv "codex" plan minted = .ok (flags, id)) :
    codexPreset ((permission.map Codex.approvalArgv).getD [] ++ flags) = permission := by
  cases permission with
  | none => cases plan <;> cases hsession <;> rfl
  | some permission =>
      have hmode := hmodes permission rfl
      simp only [CODEX_PERMISSION_MODES, List.mem_cons, List.not_mem_nil, or_false] at hmode
      rcases hmode with rfl | rfl | rfl <;> rfl

theorem head_approval {permission : Option String} {head : String}
    (hmodes : ∀ p, permission = some p → p ∈ CODEX_PERMISSION_MODES)
    (hhead : head ∉ ["--sandbox", "--approve-for-me", "--dangerously-bypass-approvals-and-sandbox"])
    (hflags : flags.head? ≠ some head) :
    ((permission.map Codex.approvalArgv).getD [] ++ flags).head? ≠ some head := by
  simp only [List.mem_cons, List.not_mem_nil, or_false, not_or] at hhead
  cases permission with
  | none => exact hflags
  | some permission =>
      have hmode := hmodes permission rfl
      simp only [CODEX_PERMISSION_MODES, List.mem_cons, List.not_mem_nil, or_false] at hmode
      rcases hmode with rfl | rfl | rfl <;> simp [Codex.approvalArgv, hhead, eq_comm]

theorem codex_read (hmodes : ∀ p, settings.permissionMode = some p → p ∈ CODEX_PERMISSION_MODES)
    (hinv : managedCodexInvocation settings plan minted prompt = .ok inv) :
    readLaunch "codex" inv = ⟨settings.model, settings.effort, settings.permissionMode⟩ := by
  obtain ⟨flags, id, hsession, hargv⟩ := codex_threaded hinv
  have hspelled : codexEffortArg.Injective := by
    intro e e'
    cases e <;> cases e' <;> decide
  have hmodel : flags.head? ≠ some "--model" := head_clause rfl hsession (by decide)
  have heffort : flags.head? ≠ some "-c" := head_clause rfl hsession (by decide)
  simp only [readLaunch, hargv, startupArgv, List.append_assoc, List.cons_append, List.nil_append,
    List.drop_succ_cons, List.drop_zero]
  rw [takeFlag_flagArgv (head_flagArgv (by decide) (head_approval hmodes (by decide) hmodel)),
    takeFlag_flagArgv (head_approval hmodes (by decide) heffort), codexPreset_read hmodes hsession]
  exact congrArg (fun effort => (⟨settings.model, effort, settings.permissionMode⟩ : Carried))
    (effort_read hspelled settings.effort)

theorem agyPreset_read {permission : Option String}
    (hmodes : ∀ p, permission = some p → p ∈ ANTIGRAVITY_PERMISSION_MODES)
    (hsession : sessionArgv "antigravity" plan minted = .ok (flags, id)) :
    agyPreset ((permission.map Agy.permissionArgv).getD [] ++ flags) = permission := by
  cases permission with
  | none => cases plan <;> cases hsession <;> rfl
  | some permission =>
      have hmode := hmodes permission rfl
      simp only [ANTIGRAVITY_PERMISSION_MODES, List.mem_cons, List.not_mem_nil, or_false] at hmode
      rcases hmode with rfl | rfl <;> rfl

theorem head_agyPermission {permission : Option String} {head : String}
    (hhead : head ∉ ["--sandbox", "--dangerously-skip-permissions"])
    (hflags : flags.head? ≠ some head) :
    ((permission.map Agy.permissionArgv).getD [] ++ flags).head? ≠ some head := by
  simp only [List.mem_cons, List.not_mem_nil, or_false, not_or] at hhead
  cases permission with
  | none => exact hflags
  | some permission =>
      simp only [Option.map_some, Option.getD_some, Agy.permissionArgv]
      split
      · simpa [eq_comm] using hhead.1
      · simpa [eq_comm] using hhead.2
      · exact hflags

theorem antigravity_read
    (heffort : settings.effort.bind Agy.effortValue = settings.effort.map Effort.asStr)
    (hmodes : ∀ p, settings.permissionMode = some p → p ∈ ANTIGRAVITY_PERMISSION_MODES)
    (hinv : managedAntigravityInvocation settings plan minted prompt = .ok inv) :
    readLaunch "antigravity" inv = ⟨settings.model, settings.effort, settings.permissionMode⟩ := by
  obtain ⟨flags, id, hsession, hargv⟩ := antigravity_threaded hinv
  have hmodel : flags.head? ≠ some "--model" := head_clause rfl hsession (by decide)
  have hflag : flags.head? ≠ some "--effort" := head_clause rfl hsession (by decide)
  simp only [readLaunch, hargv, startupArgv, List.append_assoc, List.cons_append, List.nil_append,
    List.drop_succ_cons, List.drop_zero]
  rw [takeFlag_flagArgv (head_flagArgv (by decide) (head_agyPermission (by decide) hmodel)),
    heffort,
    takeFlag_flagArgv (head_agyPermission (by decide) hflag), agyPreset_read hmodes hsession,
      effort_read asStr_injective]

theorem opencodePreset_read {permission : Option String}
    (hmodes : ∀ p, permission = some p → p ∈ OPENCODE_PERMISSION_MODES)
    (hsession : sessionArgv "opencode" plan minted = .ok (flags, id)) :
    (if ((permission.map OpenCode.permissionArgv).getD [] ++ flags).head? = some "--auto"
      then some "auto-approve" else none) = permission.filter fun mode => mode != "default" := by
  cases permission with
  | none => cases plan <;> cases hsession <;> rfl
  | some permission =>
      have hmode := hmodes permission rfl
      simp only [OPENCODE_PERMISSION_MODES, List.mem_cons, List.not_mem_nil, or_false] at hmode
      rcases hmode with rfl | rfl
      · cases plan <;> cases hsession <;> rfl
      · rfl

theorem head_opencodePermission {permission : Option String} {head : String}
    (hhead : head ≠ "--auto") (hflags : flags.head? ≠ some head) :
    ((permission.map OpenCode.permissionArgv).getD [] ++ flags).head? ≠ some head := by
  rcases permission with _ | permission
  · exact hflags
  · by_cases hauto : permission = "auto-approve"
    · simpa [OpenCode.permissionArgv, hauto, eq_comm] using hhead
    · simpa [OpenCode.permissionArgv, hauto] using hflags

theorem opencode_read (hmodes : ∀ p, settings.permissionMode = some p →
    p ∈ OPENCODE_PERMISSION_MODES)
    (hinv : managedOpencodeInvocation settings plan minted prompt = .ok inv) :
    readLaunch "opencode" inv =
      ⟨settings.model, settings.effort, settings.permissionMode.filter fun mode =>
        mode != "default"⟩ := by
  have hread : readLaunch "opencode" inv = readOpencode inv.argv inv.env := rfl
  rw [hread]
  unfold managedOpencodeInvocation at hinv
  split at hinv
  · cases hinv
  · cases hinv
  · next effort model flags id heffort hmodel hsession =>
      cases hinv
      simp only [readOpencode, managedInvocation, List.cons_append, List.nil_append,
        List.drop_succ_cons, List.drop_zero, takeFlag, if_true, List.lookup_cons_self,
          Option.map_some, Option.bind_some,
        readAgentConfig_effortAgentConfig, opencodePreset_read hmodes hsession, heffort, hmodel]
  · next flags id heffort hsession =>
      cases hinv
      have hagent : flags.head? ≠ some "--agent" := head_clause rfl hsession (by decide)
      have hm : flags.head? ≠ some "-m" := head_clause rfl hsession (by decide)
      have hnone : takeFlag "--agent" (flagArgv "-m" settings.model ++
          ((settings.permissionMode.map OpenCode.permissionArgv).getD [] ++ flags)) =
            (none, flagArgv "-m" settings.model ++
              ((settings.permissionMode.map OpenCode.permissionArgv).getD [] ++ flags)) :=
        takeFlag_other (head_flagArgv (by decide) (head_opencodePermission (by decide) hagent))
      simp only [readOpencode, managedInvocation, List.append_assoc, List.cons_append,
        List.nil_append,
        List.drop_succ_cons, List.drop_zero, hnone,
          takeFlag_flagArgv (head_opencodePermission (by decide) hm),
        opencodePreset_read hmodes hsession, heffort]

/-! ## Accepted settings build -/

/-- An opencode effort without the model whose variant would carry it. -/
def EffortAlone (settings : EffectiveSettings) : Prop :=
  settings.harness = "opencode" ∧ settings.effort.isSome ∧ settings.model = none

open Daemon (targetSession)

theorem sessionArgv_target {harness : String} (hbuiltin : isBuiltinHarness harness = true)
    (plan : SessionPlan)
    (uuid : String) : ∃ flags id, sessionArgv harness plan (targetSession plan uuid) =
      .ok (flags, id) := by
  rcases builtin_cases hbuiltin with
      rfl | rfl | rfl | rfl | rfl <;> cases plan <;> exact ⟨_, _, rfl⟩

theorem opencode_builds (hmodel : settings.effort.isSome → settings.model ≠ none)
    (plan : SessionPlan) (uuid prompt : String) :
    ∃ inv, managedOpencodeInvocation settings plan (targetSession plan uuid) prompt = .ok inv := by
  obtain ⟨flags, id, hsession⟩ := @sessionArgv_target "opencode" rfl plan uuid
  unfold managedOpencodeInvocation
  rw [hsession]
  cases heffort : settings.effort with
  | none => exact ⟨_, rfl⟩
  | some effort =>
      cases hset : settings.model with
      | none => exact absurd hset (hmodel (by simp [heffort]))
      | some model => exact ⟨_, rfl⟩

theorem builtin_builds (hbuiltin : isBuiltinHarness settings.harness = true)
    (hpi : settings.harness = "pi" → settings.permissionMode = none)
    (halone : ¬EffortAlone settings)
    (templates : List (String × List String)) (plan : SessionPlan) (uuid prompt : String) :
    ∃ inv, buildInvocation settings.harness templates settings plan (targetSession plan uuid)
      prompt = .ok inv := by
  rcases builtin_cases hbuiltin with h | h | h | h | h <;> rw [h]
  · have hpermission := hpi h
    change ∃ inv, managedPiInvocation settings plan (targetSession plan uuid) prompt = .ok inv
    rw [managedPiInvocation, hpermission, Option.isSome_none, if_neg (by decide)]
    cases plan <;> exact ⟨_, rfl⟩
  · cases plan <;> exact ⟨_, rfl⟩
  · cases plan <;> exact ⟨_, rfl⟩
  · exact opencode_builds (fun heffort hmodel => halone ⟨h, heffort, hmodel⟩) plan uuid prompt
  · cases plan <;> exact ⟨_, rfl⟩

/-- The launch of settings: a built-in is told them and no prompt, a configured harness gets
its template. -/
structure Launches (config : Configuration) (settings : EffectiveSettings) (plan : SessionPlan)
    (uuid prompt : String) (inv : HarnessInvocation) : Prop where
  built : buildInvocation settings.harness config.templates settings plan (targetSession plan uuid)
    prompt = .ok inv
  carried : isBuiltinHarness settings.harness = true →
    readLaunch settings.harness inv = settings.carried
  silent : isBuiltinHarness settings.harness = true → ∀ systemPrompt prompt', ∃ inv',
    buildInvocation settings.harness config.templates { settings with systemPrompt } plan
      (targetSession plan uuid) prompt' = .ok inv' ∧ inv'.argv = inv.argv
  templated : isBuiltinHarness settings.harness = false → ∃ configured,
    config.harness.lookup settings.harness = some configured ∧
    inv.argv = substituteTemplate configured.argv settings

theorem read_of_build (hbuiltin : isBuiltinHarness settings.harness = true)
    (hcaps : config.capabilities settings.harness = some caps)
    (hfits : Fits caps settings.model settings.effort settings.permissionMode)
    (hinv : buildInvocation settings.harness config.templates settings plan minted
    prompt = .ok inv) : readLaunch settings.harness inv = settings.carried := by
  have hcarried (hother : settings.harness ≠ "opencode") :
      settings.carried = ⟨settings.model, settings.effort, settings.permissionMode⟩ := by
    have hbeq : (settings.harness == "opencode") = false := by simpa using hother
    rw [EffectiveSettings.carried]
    cases settings.permissionMode <;> simp [hbeq]
  rcases builtin_cases hbuiltin with h | h | h | h | h
  · rw [hcarried (by simp [h]), h]
    rw [h] at hcaps hinv
    cases hcaps
    have hpermission : settings.permissionMode = none := by
      cases hset : settings.permissionMode with
      | none => rfl
      | some p => exact absurd (hfits.permissions p hset) (by simp)
    exact pi_read hpermission hinv
  · rw [hcarried (by simp [h]), h]
    rw [h] at hinv
    exact claude_read hinv
  · rw [hcarried (by simp [h]), h]
    rw [h] at hcaps hinv
    cases hcaps
    exact codex_read hfits.permissions hinv
  · rw [h] at hcaps hinv
    cases hcaps
    have hopencode : settings.carried =
        ⟨settings.model, settings.effort, settings.permissionMode.filter fun mode =>
          mode != "default"⟩ := by
      simp [EffectiveSettings.carried, h, bne]
    rw [hopencode, h]
    exact opencode_read hfits.permissions hinv
  · rw [hcarried (by simp [h]), h]
    rw [h] at hcaps hinv
    have heffort := agy_effort_value hcaps hfits
    cases hcaps
    exact antigravity_read heffort hfits.permissions hinv

theorem silent_of_build (hbuiltin : isBuiltinHarness settings.harness = true)
    (hpi : settings.harness = "pi" → settings.permissionMode = none)
    (halone : ¬EffortAlone settings) {uuid : String}
    (hinv : buildInvocation settings.harness config.templates settings plan
    (targetSession plan uuid) prompt = .ok inv) (systemPrompt : Option String) (prompt' : String) :
    ∃ inv', buildInvocation settings.harness config.templates { settings with systemPrompt } plan
      (targetSession plan uuid) prompt' = .ok inv' ∧ inv'.argv = inv.argv := by
  have hother : ¬EffortAlone { settings with systemPrompt } := halone
  obtain ⟨inv', hinv'⟩ :=
    @builtin_builds { settings with systemPrompt } hbuiltin hpi hother config.templates plan uuid
    prompt'
  have hstartup : startupArgv { settings with systemPrompt } settings.harness =
      startupArgv settings settings.harness := by
    rcases builtin_cases hbuiltin with h | h | h | h | h <;> rw [h] <;> rfl
  obtain ⟨flags, _, hsession, hargv⟩ := threaded_of_build hbuiltin hinv
  obtain ⟨flags', _, hsession', hargv'⟩ :=
    @threaded_of_build _ _ { settings with systemPrompt } _ _ _ _ hbuiltin hinv'
  cases hsession.symm.trans hsession'
  exact ⟨inv', hinv', hargv'.trans (hstartup ▸ hargv.symm)⟩

/-- An accepted pair resolves to settings that launch, an opencode effort without a model apart. -/
theorem accepted_builds (config : Configuration) (card : Card) (column : Column)
    (haccepted : validateEffectiveSettings config.capabilities card column = .ok ()) :
    ∃ settings, effectiveSettings card column = .ok settings ∧ ∀ plan uuid prompt,
      (EffortAlone settings →
        buildInvocation settings.harness config.templates settings plan
          (targetSession plan uuid) prompt = .error .openCodeEffortRequiresModel) ∧
      (¬EffortAlone settings → ∃ inv, Launches config settings plan uuid prompt inv) := by
  obtain ⟨settings, caps, hsettings, hcaps, hfits⟩ := settings_of_accepted haccepted
  refine ⟨settings, hsettings, fun plan uuid prompt => ⟨?_, fun halone => ?_⟩⟩
  · rintro ⟨hharness, heffort, hmodel⟩
    obtain ⟨effort, heffort⟩ := Option.isSome_iff_exists.mp heffort
    rw [hharness]
    change managedOpencodeInvocation settings plan _ prompt = _
    rw [managedOpencodeInvocation, heffort, hmodel]
  · cases hbuiltin : isBuiltinHarness settings.harness with
    | true =>
        have hpi (h : settings.harness = "pi") : settings.permissionMode = none := by
          rw [h] at hcaps
          cases hcaps
          cases hset : settings.permissionMode with
          | none => rfl
          | some p => exact absurd (hfits.permissions p hset) (by simp)
        obtain ⟨inv, hinv⟩ := builtin_builds hbuiltin hpi halone config.templates plan uuid prompt
        exact ⟨inv, hinv, fun _ => read_of_build hbuiltin hcaps hfits hinv,
          fun _ => silent_of_build hbuiltin hpi halone hinv,
            fun hother => absurd (hbuiltin.symm.trans hother) (by decide)⟩
    | false =>
        obtain ⟨configured, hconfigured, htemplate⟩ := template_of_capabilities hbuiltin hcaps
        have hname : settings.harness ∉ BUILTIN_HARNESSES := by
          simpa [isBuiltinHarness] using hbuiltin
        simp only [BUILTIN_HARNESSES, List.mem_cons, List.not_mem_nil, or_false, not_or] at hname
        have hinv : buildInvocation settings.harness config.templates settings plan
            (targetSession plan uuid) prompt = .ok
            { agentKind := none, initialPrompt := none, systemPrompt := none
              argv := substituteTemplate configured.argv settings
              env := [("BOARD_PROMPT", prompt),
                ("BOARD_SYSTEM_PROMPT", protocolSystemPrompt settings.systemPrompt)]
              resultingSessionId := none } := by
          simp only [buildInvocation, hname, if_false, htemplate]
        exact ⟨_, hinv, fun h => absurd (h.symm.trans hbuiltin) (by decide),
          fun h => absurd (h.symm.trans hbuiltin) (by decide),
            fun _ => ⟨configured, hconfigured, rfl⟩⟩

/-! ## An effort without a model, and a template without a place for the model -/

/-- A configuration with one harness, whose template has no placeholder. -/
def shellConfiguration : Configuration :=
  { harness := [("sh", { models := [], efforts := [], permissionModes := [], argv := ["s"] })]
    agyModels := none
    agyEfforts := by simp }

theorem splitOn_s (placeholder : String) (hsome : placeholder ≠ "")
    (hfirst : String.Pos.Raw.get placeholder 0 ≠ 's') : "s".splitOn placeholder = ["s"] := by
  have hstart : String.Pos.Raw.get "s" 0 = 's' := by decide +kernel
  rw [String.splitOn, if_neg (by simpa using hsome), String.splitOnAux,
    if_neg (by decide +kernel), hstart,
    if_neg (by simpa using hfirst.symm), String.splitOnAux, if_pos (by decide +kernel)]
  decide +kernel

theorem substituteTemplate_s (settings : EffectiveSettings) :
    substituteTemplate ["s"] settings = ["s"] := by
  have hkept (placeholder : String) (value : Option String) (hsome : placeholder ≠ "")
      (hfirst : String.Pos.Raw.get placeholder 0 ≠ 's') :
      substitutePlaceholder placeholder value "s" = some "s" := by
    rw [substitutePlaceholder, splitOn_s placeholder hsome hfirst]
    rfl
  simp only [substituteTemplate, List.filterMap_cons, List.filterMap_nil, Option.bind_some,
    hkept "\x7bmodel\x7d" settings.model (by decide) (by decide +kernel),
    hkept "\x7beffort\x7d" (settings.effort.map Effort.asStr) (by decide) (by decide +kernel),
    hkept "\x7bpermission_mode\x7d" settings.permissionMode (by decide) (by decide +kernel)]

def cardOf (harness : String) (model : Option String) (effort : Option Effort) : Card :=
  { id := 1, boardId := 1, columnId := 1, position := 0, title := "t",
    description := "do it", harness, model, effort,
    permissionMode := none, session := none, spaceKind := .workspace, spaceRef := none, spaceCwd :=
  none, status := .idle,
    awaitingReason := none, sessionId := none, createdAt := "", updatedAt :=
  "", archivedAt := none }

def columnOf : Column :=
  { id := 1, boardId := 1, name := "Todo", position := 0, systemPrompt := none, trigger := .auto,
    onSuccessColumnId := none, onFailColumnId := none, freshSession :=
  false, harnessOverride := none,
    modelOverride := none, effortOverride := none, permissionOverride :=
  none, timeoutMinutes := none }

def settingsOf (harness : String) (model : Option String) (effort : Option Effort) :
    EffectiveSettings :=
  { harness, model, effort, permissionMode := none, systemPrompt := none,
    freshSession := false, timeoutMinutes := none }

/-- Accepted settings that do not build, and accepted settings whose model the launch
does not carry. -/
theorem accepted_not_launched :
    (validateEffectiveSettings shellConfiguration.capabilities (cardOf "opencode" none (some .high))
      columnOf = .ok () ∧
      effectiveSettings (cardOf "opencode" none (some .high)) columnOf =
        .ok (settingsOf "opencode" none (some .high)) ∧
      buildInvocation "opencode" shellConfiguration.templates
        (settingsOf "opencode" none (some .high)) .mint (some "u")
        "do it" = .error .openCodeEffortRequiresModel) ∧
    (validateEffectiveSettings shellConfiguration.capabilities (cardOf "sh" (some "big") none)
      columnOf = .ok () ∧
      effectiveSettings (cardOf "sh" (some "big") none) columnOf =
        .ok (settingsOf "sh" (some "big") none) ∧
      (buildInvocation "sh" shellConfiguration.templates (settingsOf "sh" (some "big") none)
        .mint (some "u") "do it").toOption.map HarnessInvocation.argv = some ["s"]) :=
  ⟨⟨rfl, rfl, rfl⟩, rfl, rfl, congrArg some (substituteTemplate_s _)⟩

/-- What agy prints of one model in two variants. -/
def geminiPrinted : Value :=
  let model (id : String) : Value :=
    .object [("id", .string id), ("label", .string "Gemini 3.7 Flash")]
  .object
    [ ("command", .object
        [("data", .object
          [("models", .array [model "gemini-3.7-flash-high", model "gemini-3.7-flash-low"])])]),
      ("status", .string "SUCCESS") ]

example : AgyCatalog.parseModels geminiPrinted =
    some [{ id := "gemini-3.7-flash", efforts := [.low, .high] }] := by
  decide +kernel

theorem accepted_builds_opus :
    (∃ settings, effectiveSettings (cardOf "claude" (some "opus") (some .max)) columnOf =
      .ok settings ∧ ∀ plan uuid prompt,
        (EffortAlone settings →
          buildInvocation settings.harness shellConfiguration.templates settings plan
            (targetSession plan uuid) prompt = .error .openCodeEffortRequiresModel) ∧
        (¬EffortAlone settings →
          ∃ inv, Launches shellConfiguration settings plan uuid prompt inv)) ∧
    ∃ settings, effectiveSettings (cardOf "antigravity" (some "gemini-3.7-flash") (some .high))
      columnOf = .ok settings ∧ ∀ plan uuid prompt, ¬EffortAlone settings →
        ∃ inv, Launches (.live [] (some geminiPrinted)) settings plan uuid prompt inv := by
  refine ⟨accepted_builds shellConfiguration (cardOf "claude" (some "opus") (some .max))
    columnOf rfl, ?_⟩
  have haccepted : validateEffectiveSettings
      (Configuration.live [] (some geminiPrinted)).capabilities
      (cardOf "antigravity" (some "gemini-3.7-flash") (some .high)) columnOf = .ok () := by
        decide +kernel
  obtain ⟨settings, hsettings, hbuilds⟩ := accepted_builds (.live [] (some geminiPrinted))
    (cardOf "antigravity" (some "gemini-3.7-flash") (some .high)) columnOf haccepted
  exact ⟨settings, hsettings, fun plan uuid prompt => (hbuilds plan uuid prompt).2⟩

end HerdrBoard.Core
