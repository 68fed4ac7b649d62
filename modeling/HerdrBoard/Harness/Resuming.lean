import HerdrBoard.Harness.Accepted
import HerdrBoard.Spawner.MintPrompt

/-!
# Resuming a recorded launch

When the argv that a rescue threads from a recorded one is the argv of the same settings resumed.
-/

namespace HerdrBoard.Core

open Spawner (SelfMinting isCodexMint isCodexMint_mint isCodexMint_concat agyFlags_clean
  opencodePermission_cases)

/-! ## Dropping flags -/

section Strip

variable {flags : List (String × Bool)} {start rest : List String}

theorem stripFlags_append (hclean : ∀ token ∈ start, flags.lookup token = none) :
    stripFlags flags (start ++ rest) = start ++ stripFlags flags rest := by
  induction start with
  | nil => rfl
  | cons token start ih =>
      have hfirst := hclean token List.mem_cons_self
      have hrest := ih fun token hmem => hclean token (List.mem_cons_of_mem _ hmem)
      rw [List.cons_append, stripFlags.eq_def]
      simp only [hfirst, hrest, List.cons_append]

/-- What is kept is no flag. -/
theorem stripFlags_clean (argv : List String) :
    ∀ token ∈ stripFlags flags argv, flags.lookup token = none := by
  fun_induction stripFlags flags argv with
  | case1 => simp
  | case2 => simp
  | case3 token value rest hflag ih => exact ih
  | case4 token rest hflag ih => exact ih
  | case5 token rest hflag ih =>
      intro kept hkept
      rcases List.mem_cons.mp hkept with rfl | hkept
      · exact hflag
      · exact ih kept hkept

/-- The start is what is left exactly when no token of it is a flag. -/
theorem stripFlags_eq_iff (hclause : stripFlags flags rest = []) :
    stripFlags flags (start ++ rest) = start ↔ ∀ token ∈ start, flags.lookup token = none := by
  constructor
  · intro heq token hmem
    exact stripFlags_clean (start ++ rest) token (heq.symm ▸ hmem)
  · intro hclean
    rw [stripFlags_append hclean, hclause, List.append_nil]

end Strip

variable {settings : EffectiveSettings} {plan : SessionPlan} {minted : Option String}
  {flags : List String} {id : Option String}

/-- Nothing of a session clause is kept. -/
theorem stripFlags_clause {harness : String} (hbuiltin : isBuiltinHarness harness = true)
    (hother : harness ≠ "codex") (hsession : sessionArgv harness plan minted = .ok (flags, id)) :
    stripFlags (sessionFlags harness) flags = [] := by
  rcases builtin_cases hbuiltin with rfl | rfl | rfl | rfl | rfl
  · cases plan <;> cases minted <;> cases hsession <;> rfl
  · cases plan <;> cases minted <;> cases hsession <;> rfl
  · exact absurd rfl hother
  · cases plan <;> cases hsession <;> rfl
  · cases plan <;> cases hsession <;> rfl

/-! ## Models that are spelled like a session flag -/

/-- The model stands in the argv and is spelled like a session flag; codex looks only at the
tail of a mint. -/
def ModelTakenForSession (settings : EffectiveSettings) (plan : SessionPlan) : String → Prop
  | "pi" => settings.model = some "--session-id" ∨ settings.model = some "--fork"
  | "claude" => settings.model = some "--session-id" ∨ settings.model = some "--resume" ∨
      settings.model = some "--fork-session"
  | "codex" => plan = .mint ∧ SelfMinting.codex.Collides settings
  | "opencode" => settings.effort = none ∧
      (settings.model = some "-s" ∨ settings.model = some "--fork")
  | "antigravity" => settings.model = some "--conversation"
  | _ => False

/-- The plan names a conversation, or a minted uuid that the harness is given, that is
spelled `--`. -/
def SeparatorInPlan (plan : SessionPlan) (minted : Option String) : String → Prop
  | "pi" => plan = .resume "--" ∨ plan = .fork "--" ∨ (minted = some "--" ∧ ∀ id, plan ≠ .resume id)
  | "claude" => plan = .resume "--" ∨ plan = .fork "--" ∨ (minted = some "--" ∧ plan = .mint)
  | _ => plan = .resume "--" ∨ plan = .fork "--"

theorem forall_mem_flagArgv {P : String → Prop} {flag : String} {value : Option String} :
    (∀ token ∈ flagArgv flag value, P token) ↔ ∀ v, value = some v → P flag ∧ P v := by
  cases value <;> simp [flagArgv]

/-! ## The startup flags keep clear of the session flags -/

theorem pi_clean : (∀ token ∈ startupArgv settings "pi", (sessionFlags "pi").lookup token = none) ↔
    ¬ModelTakenForSession settings plan "pi" := by
  have hflag (token : String) : (sessionFlags "pi").lookup token = none ↔
      token ≠ "--session-id" ∧ token ≠ "--fork" := by
    simp [sessionFlags]
  have heffort (effort : Effort) : effort.asStr ≠ "--session-id" ∧ effort.asStr ≠ "--fork" := by
    cases effort <;> decide
  simp only [startupArgv, ModelTakenForSession, List.forall_mem_append, forall_mem_flagArgv, hflag]
  cases settings.model <;> cases settings.effort <;> simp [heffort]

theorem claude_clean (hmodes : ∀ p, settings.permissionMode = some p →
    p ∈ CLAUDE_PERMISSION_MODES) :
    (∀ token ∈ startupArgv settings "claude", (sessionFlags "claude").lookup token = none) ↔
      ¬ModelTakenForSession settings plan "claude" := by
  have hflag (token : String) : (sessionFlags "claude").lookup token = none ↔
      token ≠ "--session-id" ∧ token ≠ "--resume" ∧ token ≠ "--fork-session" := by
    simp [sessionFlags]
  have heffort (effort : Effort) :
      effort.asStr ≠ "--session-id" ∧ effort.asStr ≠ "--resume" ∧
      effort.asStr ≠ "--fork-session" := by
    cases effort <;> decide
  have hmode : ∀ p ∈ CLAUDE_PERMISSION_MODES, p ≠ "--session-id" ∧ p ≠ "--resume" ∧
      p ≠ "--fork-session" := by decide
  simp only [startupArgv, ModelTakenForSession, List.forall_mem_append, forall_mem_flagArgv, hflag]
  cases hpermission : settings.permissionMode with
  | none => cases settings.model <;> cases settings.effort <;> simp [heffort]
  | some permission =>
      have hclear := hmode permission (hmodes permission hpermission)
      cases settings.model <;> cases settings.effort <;> simp [heffort, hclear]

theorem opencode_clean :
    (∀ token ∈ startupArgv settings "opencode", (sessionFlags "opencode").lookup token = none) ↔
    ¬ModelTakenForSession settings plan "opencode" := by
  have hflag (token : String) : (sessionFlags "opencode").lookup token = none ↔
      token ≠ "-s" ∧ token ≠ "--fork" := by
    simp [sessionFlags]
  simp only [startupArgv, ModelTakenForSession, hflag]
  rcases opencodePermission_cases settings.permissionMode with h | h <;> rw [h] <;>
    cases settings.effort <;> cases settings.model <;> simp [flagArgv, OpenCode.AGENT_NAME]

theorem antigravity_clean :
    (∀ token ∈ startupArgv settings "antigravity",
      (sessionFlags "antigravity").lookup token = none) ↔
      ¬ModelTakenForSession settings plan "antigravity" := by
  have hflag (token : String) : (sessionFlags "antigravity").lookup token = none ↔
      token ≠ "--conversation" := by
    simp [sessionFlags]
  have hclean : ∀ token ∈ flagArgv "--effort" (settings.effort.bind Agy.effortValue) ++
      (settings.permissionMode.map Agy.permissionArgv).getD [], token ≠ "--conversation" := by
    rintro _ hmem rfl
    exact agyFlags_clean settings hmem
  simp only [startupArgv, ModelTakenForSession, List.append_assoc, hflag]
  rw [List.forall_mem_append, List.forall_mem_append, forall_mem_flagArgv,
    iff_true_intro hclean, and_true]
  cases settings.model <;> simp

/-! ## Re-threading -/

theorem stripSessionFlags_codex (argv : List String) :
    stripSessionFlags "codex" argv = if isCodexMint argv then argv
      else argv.take (argv.length - 2) := by
  rw [stripSessionFlags, if_pos rfl]
  by_cases h : 2 ≤ argv.length ∧ ["resume", "fork"].contains (argv.getD (argv.length - 2) "") = true
  · have hread : isCodexMint argv = false := by
      simp only [isCodexMint, h.1, h.2, decide_true, Bool.and_self, Bool.not_true]
    rw [if_pos h, hread]
    rfl
  · have hread : isCodexMint argv = true := by
      simpa only [isCodexMint, Bool.not_eq_true', Bool.and_eq_false_imp, decide_eq_true_eq, not_and,
        Bool.not_eq_true] using h
    rw [if_neg h, if_pos hread]

theorem strip_codex (hsession : sessionArgv "codex" plan minted = .ok (flags, id)) :
    stripSessionFlags "codex" (startupArgv settings "codex" ++ flags) =
      startupArgv settings "codex" ↔ ¬ModelTakenForSession settings plan "codex" := by
  have hmint := isCodexMint_mint settings
  rw [stripSessionFlags_codex]
  cases plan with
  | mint =>
      cases hsession
      rw [List.append_nil]
      simp only [ModelTakenForSession, true_and]
      rw [← hmint]
      split
      · next hread => exact iff_of_true rfl hread
      · next hread =>
          refine iff_of_false (fun heq => ?_) hread
          have hlength := congrArg List.length heq
          rw [List.length_take] at hlength
          simp only [startupArgv, List.length_append, List.length_cons] at hlength
          omega
  | resume id =>
      cases hsession
      simp [isCodexMint_concat, ModelTakenForSession]
  | fork id =>
      cases hsession
      simp [isCodexMint_concat, ModelTakenForSession]

/-- The strip leaves the startup flags exactly when the model is not taken for a session flag. -/
theorem strip_threaded {harness : String} (hbuiltin : isBuiltinHarness harness = true)
    (hmodes : harness = "claude" → ∀ p, settings.permissionMode = some p →
    p ∈ CLAUDE_PERMISSION_MODES) (hsession : sessionArgv harness plan minted = .ok (flags, id)) :
    stripSessionFlags harness (startupArgv settings harness ++ flags) =
      startupArgv settings harness ↔ ¬ModelTakenForSession settings plan harness := by
  by_cases hcodex : harness = "codex"
  · subst hcodex
    exact strip_codex hsession
  · rw [stripSessionFlags, if_neg hcodex,
      stripFlags_eq_iff (stripFlags_clause hbuiltin hcodex hsession)]
    rcases builtin_cases hbuiltin with rfl | rfl | rfl | rfl | rfl
    · exact pi_clean
    · exact claude_clean (hmodes rfl)
    · exact absurd rfl hcodex
    · exact opencode_clean
    · exact antigravity_clean

/-! ## Separators -/

theorem separator_mem_clause {harness : String} (hbuiltin : isBuiltinHarness harness = true)
    (hsession : sessionArgv harness plan minted = .ok (flags, id)) :
    "--" ∈ flags ↔ SeparatorInPlan plan minted harness := by
  rcases builtin_cases hbuiltin with rfl | rfl | rfl | rfl | rfl
  · cases plan <;> cases minted <;> cases hsession <;> simp [SeparatorInPlan, eq_comm]
  · cases plan <;> cases minted <;> cases hsession <;> simp [SeparatorInPlan, eq_comm]
  · cases plan <;> cases hsession <;> simp [SeparatorInPlan, eq_comm]
  · cases plan <;> cases hsession <;> simp [SeparatorInPlan, eq_comm]
  · cases plan <;> cases hsession <;> simp [SeparatorInPlan, eq_comm]

theorem approvalArgv_no_separator {permission : String} (h : permission ≠ "--") :
    "--" ∉ Codex.approvalArgv permission := by
  unfold Codex.approvalArgv
  split
  · decide
  · decide
  · decide
  · simpa [eq_comm] using h

theorem agyPermission_no_separator (permission : String) :
    "--" ∉ Agy.permissionArgv permission := by
  unfold Agy.permissionArgv
  split <;> decide

/-- No startup token is `--` unless a value is. -/
theorem separator_not_mem_startup {harness : String} (hbuiltin : isBuiltinHarness harness = true)
    (hmodel : settings.model ≠ some "--") (hpermission : settings.permissionMode ≠ some "--") :
    "--" ∉ startupArgv settings harness := by
  have hmem {flag : String} {value : Option String} (hvalue : value ≠ some "--")
      (hflag : flag ≠ "--") : "--" ∉ flagArgv flag value := by
    have hall : ∀ token ∈ flagArgv flag value, token ≠ "--" :=
      forall_mem_flagArgv.mpr fun v hv => ⟨hflag, fun h => hvalue (h ▸ hv)⟩
    exact fun hin => hall "--" hin rfl
  have heffort : settings.effort.map Effort.asStr ≠ some "--" := by
    cases settings.effort with
    | none => simp
    | some effort => cases effort <;> decide
  rcases builtin_cases hbuiltin with rfl | rfl | rfl | rfl | rfl
  · simp only [startupArgv, List.mem_append, not_or]
    exact ⟨⟨by decide, hmem hmodel (by decide)⟩, hmem heffort (by decide)⟩
  · simp only [startupArgv, List.mem_append, not_or]
    exact ⟨⟨⟨⟨by decide, hmem hmodel (by decide)⟩, hmem heffort (by decide)⟩,
      hmem hpermission (by decide)⟩, by decide⟩
  · have hvalue : (settings.effort.map fun e => "model_reasoning_effort=" ++ Codex.effortValue e) ≠
        some "--" := by
      cases settings.effort with
      | none => simp
      | some effort => cases effort <;> decide
    have happroval : "--" ∉ (settings.permissionMode.map Codex.approvalArgv).getD [] := by
      cases hset : settings.permissionMode with
      | none => simp
      | some permission => exact approvalArgv_no_separator fun h => hpermission (h ▸ hset)
    simp only [startupArgv, List.mem_append, not_or]
    exact ⟨⟨⟨by decide, hmem hmodel (by decide)⟩, hmem hvalue (by decide)⟩, happroval⟩
  · simp only [startupArgv, List.mem_append, not_or]
    constructor
    · split
      · decide
      · simpa using hmem hmodel (by decide)
    · rcases opencodePermission_cases settings.permissionMode with h | h <;> rw [h] <;> decide
  · have hvalue : settings.effort.bind Agy.effortValue ≠ some "--" := by
      cases settings.effort with
      | none => simp
      | some effort => cases effort <;> decide
    have hmode : "--" ∉ (settings.permissionMode.map Agy.permissionArgv).getD [] := by
      cases settings.permissionMode with
      | none => simp
      | some permission => exact agyPermission_no_separator permission
    simp only [startupArgv, List.mem_append, not_or]
    exact ⟨⟨⟨by decide, hmem hmodel (by decide)⟩, hmem hvalue (by decide)⟩, hmode⟩

/-! ## The resumed launch -/

variable {prompt : String} {templates : List (String × List String)} {inv : HarnessInvocation}

/-- What dispatch records of an invocation. -/
def recordedSpec (inv : HarnessInvocation) : ExecutionSpec :=
  { argv := inv.argv, env := inv.env, agentKind := inv.agentKind,
    initialPrompt := inv.initialPrompt, systemPrompt := inv.systemPrompt }

/-- The rescue of the recorded launch has the argv of the settings resumed: their startup flags,
then one clause. -/
def Rethreads (harness : String) (templates : List (String × List String))
    (settings : EffectiveSettings)
    (prompt : String) (inv : HarnessInvocation) (id : String) : Prop :=
  ∃ spec resumed clause,
    resumeInvocation harness .byConversationId (recordedSpec inv) id = .ok spec ∧
    buildInvocation harness templates settings (.resume id) none prompt = .ok resumed ∧
    spec.argv = resumed.argv ∧
    sessionArgv harness (.resume id) none = .ok (clause, some id) ∧
    resumed.argv = startupArgv settings harness ++ clause

theorem sessionArgv_resume {harness : String} (hbuiltin : isBuiltinHarness harness = true)
    (id : String) : ∃ clause, sessionArgv harness (.resume id) none = .ok (clause, some id) := by
  rcases builtin_cases hbuiltin with rfl | rfl | rfl | rfl | rfl <;> exact ⟨_, rfl⟩

theorem opencode_resume_builds
    (hinv : managedOpencodeInvocation settings plan minted prompt = .ok inv) (id : String) :
    ∃ resumed, managedOpencodeInvocation settings (.resume id) none prompt = .ok resumed := by
  unfold managedOpencodeInvocation at hinv ⊢
  split at hinv
  · cases hinv
  · cases hinv
  · next heffort hmodel _ =>
      rw [heffort, hmodel]
      exact ⟨_, rfl⟩
  · next heffort _ =>
      rw [heffort]
      exact ⟨_, rfl⟩

theorem pi_resume_builds (hinv : managedPiInvocation settings plan minted prompt = .ok inv)
    (id : String) :
    ∃ resumed, managedPiInvocation settings (.resume id) none prompt = .ok resumed := by
  unfold managedPiInvocation at hinv ⊢
  split at hinv
  · cases hinv
  · next hpermission =>
      rw [if_neg hpermission]
      exact ⟨_, rfl⟩

/-- Settings that build for some plan build for the resume of any conversation. -/
theorem resume_builds {harness : String} (hbuiltin : isBuiltinHarness harness = true)
    (hinv : buildInvocation harness templates settings plan minted prompt = .ok inv) (id : String) :
    ∃ resumed, buildInvocation harness templates settings (.resume id) none prompt =
      .ok resumed := by
  rcases builtin_cases hbuiltin with rfl | rfl | rfl | rfl | rfl
  · exact pi_resume_builds hinv id
  · exact ⟨_, rfl⟩
  · exact ⟨_, rfl⟩
  · exact opencode_resume_builds hinv id
  · exact ⟨_, rfl⟩

theorem resumeInvocation_ok {harness : String} (hbuiltin : isBuiltinHarness harness = true)
    {spec : ExecutionSpec}
    {conversation : String} (hid : isBlank conversation = false) {clause : List String}
    (hclause : sessionArgv harness (.resume conversation) none = .ok (clause, some conversation)) :
    (∃ rescue, resumeInvocation harness .byConversationId spec conversation = .ok rescue ∧
      rescue.argv = flags) ↔
      "--" ∉ spec.argv ∧ stripSessionFlags harness spec.argv ++ clause = flags := by
  have hseparator : (spec.argv.any fun arg => arg == "--") = true ↔ "--" ∈ spec.argv := by simp
  simp only [resumeInvocation, resumeArgv, hbuiltin, hid, hclause, if_true]
  by_cases hlegacy : "--" ∈ spec.argv
  · simp [hseparator.mpr hlegacy, hlegacy]
  · simp [hseparator.not.mpr hlegacy, hlegacy]

variable {config : HarnessConfig} {card : Card} {column : Column}

/-- A recorded launch of a built-in re-threads exactly unless its model is taken for a
session flag. -/
theorem rethreads_iff (hbuiltin : isBuiltinHarness settings.harness = true)
    (haccepted : validateEffectiveSettings (capabilitiesFor config) card column = .ok ())
    (hsettings : effectiveSettings card column = .ok settings) (hmodel : settings.model ≠ some "--")
    (hpermission : settings.permissionMode ≠ some "--")
    (hinv : buildInvocation settings.harness templates settings plan minted prompt = .ok inv)
    (conversation : String) (hid : isBlank conversation = false) :
    Rethreads settings.harness templates settings prompt inv conversation ↔
      ¬ModelTakenForSession settings plan settings.harness ∧
      ¬SeparatorInPlan plan minted settings.harness := by
  obtain ⟨_, caps, heffective, hcaps, hfits⟩ := settings_of_accepted haccepted
  obtain rfl := Except.ok.inj (hsettings.symm.trans heffective)
  have hmodes (hclaude : settings.harness = "claude") (p : String)
      (hp : settings.permissionMode = some p) : p ∈ CLAUDE_PERMISSION_MODES := by
    rw [hclaude] at hcaps
    cases hcaps
    exact hfits.permissions p hp
  obtain ⟨flags, _, hsession, hargv⟩ := threaded_of_build hbuiltin hinv
  obtain ⟨clause, hclause⟩ := sessionArgv_resume hbuiltin conversation
  obtain ⟨resumed, hresumed⟩ := resume_builds hbuiltin hinv conversation
  obtain ⟨_, _, hclause', hresumedArgv⟩ := threaded_of_build hbuiltin hresumed
  cases hclause.symm.trans hclause'
  have hthread : Rethreads settings.harness templates settings prompt inv conversation ↔
      ∃ rescue, resumeInvocation settings.harness .byConversationId (recordedSpec inv)
        conversation = .ok rescue ∧
        rescue.argv = startupArgv settings settings.harness ++ clause := by
    constructor
    · rintro ⟨rescue, again, _, hrescue, hagain, hsame, -, -⟩
      obtain rfl := Except.ok.inj (hresumed.symm.trans hagain)
      exact ⟨rescue, hrescue, hsame.trans hresumedArgv⟩
    · rintro ⟨rescue, hrescue, hsame⟩
      exact ⟨rescue, resumed, clause, hrescue, hresumed, hsame.trans hresumedArgv.symm, hclause,
        hresumedArgv⟩
  have hstartup := separator_not_mem_startup hbuiltin hmodel hpermission
  have hstrip := strip_threaded hbuiltin hmodes hsession
  rw [hthread, resumeInvocation_ok hbuiltin hid hclause]
  change "--" ∉ inv.argv ∧ stripSessionFlags settings.harness inv.argv ++ clause = _ ↔ _
  rw [hargv, List.append_left_inj, hstrip, List.mem_append,
    ← separator_mem_clause hbuiltin hsession]
  simp [hstartup, and_comm]

/-! ## A model called like a session flag -/

/-- A pi card whose model is called `--session-id`. -/
def sessionCard : Card :=
  { id := 1, boardId := 1, columnId := 1, position := 0, title := "t",
    description := "do it", harness := "pi",
    model := some "--session-id", effort := none, permissionMode := none, session := none,
    spaceKind := .workspace, spaceRef := none, spaceCwd := none, status :=
  .idle, awaitingReason := none,
    sessionId := none, createdAt := "", updatedAt := "", archivedAt := none }

def sessionSettings (model : String) : EffectiveSettings :=
  { harness := "pi", model := some model, effort := none, permissionMode := none,
    systemPrompt := none, freshSession := false, timeoutMinutes := none }

def sessionInvocation (model : String) : HarnessInvocation :=
  { agentKind := some "pi", initialPrompt := some "do it",
    systemPrompt := some BOARD_PROTOCOL_TRAILER,
    argv := ["pi", "--model", model, "--session-id", "u"], env :=
  [], resultingSessionId := some "u" }

/-- The rescue of the card whose model is called `--session-id` loses the model, and the minted id
becomes the model. -/
theorem rescue_swallows_session_model :
    validateEffectiveSettings (capabilitiesFor { harness := [], agyModels := none }) sessionCard
      Spawner.plainColumn = .ok () ∧
    effectiveSettings sessionCard Spawner.plainColumn = .ok (sessionSettings "--session-id") ∧
    buildInvocation "pi" [] (sessionSettings "--session-id") .mint (some "u") "do it" =
      .ok (sessionInvocation "--session-id") ∧
    resumeArgv "pi" (sessionInvocation "--session-id").argv "c" =
      .ok ["pi", "--model", "u", "--session-id", "c"] ∧
    ¬Rethreads "pi" [] (sessionSettings "--session-id") "do it"
      (sessionInvocation "--session-id") "c" := by
  refine ⟨rfl, rfl, rfl, rfl, ?_⟩
  rintro ⟨spec, resumed, _, hspec, hresumed, hsame, -, -⟩
  cases hspec
  cases hresumed
  revert hsame
  decide

theorem rethreads_iff_opus :
    Rethreads "pi" [] (sessionSettings "opus") "do it" (sessionInvocation "opus") "c" ↔
      ¬ModelTakenForSession (sessionSettings "opus") .mint "pi" ∧
      ¬SeparatorInPlan .mint (some "u") "pi" := by
  have haccepted : validateEffectiveSettings (capabilitiesFor { harness := [], agyModels := none })
      { sessionCard with model := some "opus" } Spawner.plainColumn = .ok () := rfl
  exact rethreads_iff rfl haccepted rfl (by decide) (by decide) rfl "c" (by decide)

end HerdrBoard.Core
