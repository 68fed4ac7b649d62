import HerdrBoard.Core.Engine.Validation

/-!
# Harness capabilities

The models, efforts and permission modes of the built-in harnesses and of config-defined ones.
-/

namespace HerdrBoard.Core

/-- The whole board ladder, ascending. -/
def ALL_EFFORTS : List Effort := [.off, .minimal, .low, .medium, .high, .xhigh, .max]

def CLAUDE_EFFORTS : List Effort := [.low, .medium, .high, .xhigh, .max]

def CLAUDE_PERMISSION_MODES : List String :=
  ["acceptEdits", "auto", "bypassPermissions", "manual", "dontAsk", "plan"]

def CODEX_PERMISSION_MODES : List String := ["ask-for-approval", "approve-for-me", "full-access"]

def OPENCODE_PERMISSION_MODES : List String := ["default", "auto-approve"]

def ANTIGRAVITY_DEFAULT_EFFORTS : List Effort := [.low, .medium, .high]

def ANTIGRAVITY_PERMISSION_MODES : List String := ["sandbox", "always-proceed"]

/-- The opencode models listed without live discovery. -/
def fallbackModels : List ModelInfo :=
  [{ id := "opencode/nemotron-3-ultra-free", efforts := [] },
   { id := "opencode/deepseek-v4-flash-free", efforts := [.low, .high, .max] }]

/-- A config-defined harness. -/
structure HarnessDef where
  models : List String
  efforts : List String
  permissionModes : List String

/-- What a config says about harnesses. -/
structure HarnessConfig where
  harness : List (String × HarnessDef)
  /-- The live antigravity catalog; none when it is unavailable. -/
  agyModels : Option (List ModelInfo)

def HarnessDef.capabilities (d : HarnessDef) : HarnessCapabilities :=
  let efforts := d.efforts.filterMap Effort.parseStr
  { models := d.models.map fun id => { id, efforts }
    modelFreeform := true
    defaultEfforts := efforts
    permissionModes := d.permissionModes }

def capabilitiesFor (config : HarnessConfig) : CapabilitiesFor
  | "pi" => some
      { models := [], modelFreeform := true, defaultEfforts := ALL_EFFORTS, permissionModes := [] }
  | "claude" => some
      { models := ["fable", "opus", "sonnet", "haiku"].map fun id =>
        { id, efforts := CLAUDE_EFFORTS }
        modelFreeform := true
        defaultEfforts := CLAUDE_EFFORTS
        permissionModes := CLAUDE_PERMISSION_MODES }
  | "codex" => some
      { models := [], modelFreeform := true, defaultEfforts := ALL_EFFORTS,
        permissionModes := CODEX_PERMISSION_MODES }
  | "opencode" => some
      { models := fallbackModels
        modelFreeform := true
        defaultEfforts := ALL_EFFORTS
        permissionModes := OPENCODE_PERMISSION_MODES }
  | "antigravity" => some
      { models := config.agyModels.getD []
        -- only a live catalog constrains models
        modelFreeform := config.agyModels.isNone
        defaultEfforts := ANTIGRAVITY_DEFAULT_EFFORTS
        permissionModes := ANTIGRAVITY_PERMISSION_MODES }
  | harness => (config.harness.lookup harness).map HarnessDef.capabilities

end HerdrBoard.Core
