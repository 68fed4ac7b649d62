import HerdrBoard.Core.Harness

/-!
# Validation of settings and requests
-/

namespace HerdrBoard.Core

structure ModelInfo where
  id : String
  efforts : List Effort
  deriving DecidableEq, Repr

/-- What a harness can be asked for. -/
structure HarnessCapabilities where
  models : List ModelInfo
  modelFreeform : Bool
  defaultEfforts : List Effort
  permissionModes : List String
  deriving DecidableEq, Repr

/-- The capabilities of each known harness, catalogs included. -/
abbrev CapabilitiesFor := String → Option HarnessCapabilities

/-- The efforts available for a model, or for no or an unknown model. -/
def effortsFor (caps : HarnessCapabilities) (model : Option String) : List Effort :=
  let known := model.bind fun id => caps.models.find? fun m => m.id == id
  [Effort.off, .minimal, .low, .medium, .high, .xhigh, .max].filter fun effort =>
    match known with
    | some m => m.efforts.contains effort
    | none => caps.defaultEfforts.contains effort ||
        (caps.defaultEfforts.isEmpty && caps.models.any fun m => m.efforts.contains effort)

inductive PermissionContext where
  | card
  | columnOverride
  deriving DecidableEq, Repr

/-- `Err(e)` when `c` holds. -/
def rejectIf (c : Bool) (e : ValidationError) : Except ValidationError Unit :=
  if c then .error e else .ok ()

/-- Statuses in which a card has an open run. -/
def CardStatus.isBusy : CardStatus → Bool
  | .running | .queued | .blocked | .awaiting => true
  | .idle | .failed | .done => false

def validateColumnDelete (hasCards hasActiveCard : Bool) (moveCardsTo : Option Int) :
    Except ValidationError Unit := do
  rejectIf hasActiveCard .columnHasActiveCard
  rejectIf (hasCards && moveCardsTo.isNone) .columnHasCards

def validateCardEdit (status : CardStatus) (editsLockedFields : Bool) :
    Except ValidationError Unit :=
  rejectIf (editsLockedFields && status.isBusy) .cardBusy

def validateCardArchive (status : CardStatus) : Except ValidationError Unit :=
  rejectIf status.isBusy .cardHasActiveRun

def validateCardSpace (kind : SpaceKind) (spaceRef spaceCwd : Option String) :
    Except ValidationError Unit :=
  rejectIf (kind = .newWorkspace && (spaceRef.all isBlank || spaceCwd.all isBlank))
    .newWorkspaceIncomplete

def validateColumnPermissionOverride (perm : Option String) : Except ValidationError Unit :=
  rejectIf (perm = some "bypassPermissions") .bypassNotAllowed

section Settings

variable (capabilitiesFor : CapabilitiesFor)

def validateSettingsValues (harness : String) (model : Option String) (effort : Option Effort)
    (permission : Option String) (context : PermissionContext) : Except ValidationError Unit :=
  match capabilitiesFor harness with
  | none => .error (.unknownHarness harness)
  | some caps => do
      match model with
      | some model =>
          rejectIf (!caps.modelFreeform && !caps.models.any fun known => known.id == model)
            (.invalidModel model)
      | none => .ok ()
      match effort with
      | some effort =>
          rejectIf (!(effortsFor caps model).contains effort) (.invalidEffort effort.asStr)
      | none => .ok ()
      match permission with
      | some permission => do
          rejectIf caps.permissionModes.isEmpty .piPermissionUnsupported
          rejectIf (context = .columnOverride && permission == "bypassPermissions")
            .bypassNotAllowed
          rejectIf (!caps.permissionModes.contains permission) (.invalidPermission permission)
      | none => .ok ()

def parseEffort : Option String → Except ValidationError (Option Effort)
  | none => .ok none
  | some value =>
      match Effort.parseStr value with
      | some effort => .ok (some effort)
      | none => .error (.invalidEffort value)

def validateCardValues (harness : String) (model : Option String) (effort : Option Effort)
    (permission : Option String) (spaceKind : SpaceKind) (spaceRef spaceCwd : Option String) :
    Except ValidationError Unit := do
  validateSettingsValues capabilitiesFor harness model effort permission .card
  validateCardSpace spaceKind spaceRef spaceCwd

def validateCardSettings (card : Card) : Except ValidationError Unit :=
  validateCardValues capabilitiesFor card.harness card.model card.effort card.permissionMode
    card.spaceKind card.spaceRef card.spaceCwd

def validateColumnValues
    (harnessOverride modelOverride effortOverride permissionOverride : Option String)
    (context : PermissionContext) : Except ValidationError Unit := do
  if context = .columnOverride then validateColumnPermissionOverride permissionOverride else .ok ()
  let parsedEffort ← parseEffort effortOverride
  match harnessOverride with
  | some harness =>
      validateSettingsValues capabilitiesFor harness modelOverride parsedEffort
        permissionOverride context
  | none => .ok ()

def validateColumnSettings (column : Column) (context : PermissionContext) :
    Except ValidationError Unit :=
  validateColumnValues capabilitiesFor column.harnessOverride column.modelOverride
    column.effortOverride column.permissionOverride context

def mergeCardUpdate (current : Card) (update : CardUpdateParams) : Card :=
  { current with
    title := update.title.getD current.title
    description := update.description.getD current.description
    harness := update.harness.getD current.harness
    model := update.model.apply current.model
    effort := update.effort.apply current.effort
    permissionMode := update.permissionMode.apply current.permissionMode
    session := update.session.apply current.session
    spaceKind := update.spaceKind.getD current.spaceKind
    spaceRef := update.spaceRef.apply current.spaceRef
    spaceCwd := update.spaceCwd.apply current.spaceCwd }

def mergeColumnUpdate (current : Column) (update : ColumnUpdateParams) : Column :=
  { current with
    name := update.name.getD current.name
    systemPrompt := update.systemPrompt.apply current.systemPrompt
    trigger := update.trigger.getD current.trigger
    onSuccessColumnId := update.onSuccessColumnId.apply current.onSuccessColumnId
    onFailColumnId := update.onFailColumnId.apply current.onFailColumnId
    freshSession := update.freshSession.getD current.freshSession
    harnessOverride := update.harnessOverride.apply current.harnessOverride
    modelOverride := update.modelOverride.apply current.modelOverride
    effortOverride := update.effortOverride.apply current.effortOverride
    permissionOverride := update.permissionOverride.apply current.permissionOverride
    timeoutMinutes := update.timeoutMinutes.apply current.timeoutMinutes }

def validateColumnUpdate (current merged : Column) (update : ColumnUpdateParams) :
    Except ValidationError Unit := do
  rejectIf
    (current.harnessOverride.isSome && merged.harnessOverride.isNone &&
      (merged.modelOverride.isSome || merged.effortOverride.isSome ||
        merged.permissionOverride.isSome) &&
      (update.modelOverride.isUnchanged || update.effortOverride.isUnchanged ||
        update.permissionOverride.isUnchanged))
    .orphanedColumnOverride
  validateColumnSettings capabilitiesFor merged .columnOverride

/-- The harness a run of `card` in `column` uses. -/
def effectiveHarness (card : Card) (column : Column) : String :=
  column.harnessOverride.getD card.harness

def validateEffectiveSettings (card : Card) (column : Column) : Except ValidationError Unit := do
  validateColumnPermissionOverride column.permissionOverride
  let effort ← match column.effortOverride with
    | some value => parseEffort (some value)
    | none => .ok card.effort
  validateSettingsValues capabilitiesFor (effectiveHarness card column)
    (column.modelOverride <|> card.model)
    effort (column.permissionOverride <|> card.permissionMode) .card
  validateCardSpace card.spaceKind card.spaceRef card.spaceCwd

end Settings

end HerdrBoard.Core
