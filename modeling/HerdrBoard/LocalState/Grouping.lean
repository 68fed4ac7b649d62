import HerdrBoard.Core.Json
import HerdrBoard.Core.Protocol

/-!
# Grouping configs

Mappings of levels to kinds, with the filter that selects tickets, and their
default-deny validation. -/

open HerdrBoard.Core

namespace HerdrBoard.LocalState

/-! ## Refusals -/

def shown (value : Value) : String :=
  let text := value.toText
  if text.length ≤ 80 then text else String.ofList (text.toList.take 77) ++ "..."

def shownStr (value : String) : String := shown (.string value)

def requireText (value what : String) : Except Error Unit :=
  if textOk value then .ok ()
  else .error (.badRequest
    s!"{what} is {shownStr value}; it must be non-empty text without control characters")

def requireOptionalText : Option String → String → Except Error Unit
  | none, _ => .ok ()
  | some value, what => requireText value what

def requireAbsolutePath (value what : String) : Except Error Unit := do
  requireText value what
  if value.startsWith "/" then .ok ()
  else .error (.badRequest s!"{what} is {shownStr value}; it must be an absolute path")

/-! ## Mappings -/

def commaList (items : List String) : String := ", ".intercalate items

def GROUPING_LEVELS : List String := ["space", "tab", "column", "row"]

def GROUPING_FIELD_KINDS : List String :=
  ["team", "project", "milestone", "cycle", "assignee", "state", "priority", "parent"]

def GROUPING_FILTER_KEYS : List String :=
  ["team", "project", "milestone", "cycle", "assignee", "state", "parent", "label",
    "state-type", "priority"]

def LINEAR_STATE_TYPES : List String :=
  ["triage", "backlog", "unstarted", "started", "completed", "canceled"]

/-- One mapping of levels to kinds plus the filter that selects tickets, both by ascending key. -/
structure GroupingMapping where
  levels : List (String × String)
  filter : List (String × Value)

def allowedKinds : String :=
  s!"a single-valued field ({commaList GROUPING_FIELD_KINDS}), a label group (label-group:<name>), ticket, or sub-ticket"

def checkKind (kind at_ : String) : Except Error Unit :=
  if GROUPING_FIELD_KINDS.contains kind || kind == "ticket" || kind == "sub-ticket" then .ok ()
  else match stripPrefix "label-group:" kind with
    | some name =>
        if textOk name then .ok ()
        else .error (.badRequest
          s!"{at_} is {shownStr kind}, a label-group with no usable name; a level is {allowedKinds}")
    | none =>
        .error
          (.badRequest
            s!"{at_} is {shownStr kind}, which is not a level kind; a level is {allowedKinds}")

/-- `seen` holds the kinds of the levels before, with their levels. -/
def checkLevels (whose : String) (seen : List (String × String)) :
    List (String × String) → Except Error Unit
  | [] => .ok ()
  | (level, kind) :: levels => do
      if !GROUPING_LEVELS.contains level then
        .error (.badRequest
          s!"{whose} has unknown level {shownStr level}; the levels are {commaList GROUPING_LEVELS}")
      else
        checkKind kind s!"{whose} level {level}"
        match seen.lookup kind with
        | some first => .error (.badRequest
            s!"{whose} sets levels {first} and {level} to the same kind {shownStr kind}; levels must be distinct")
        | none => checkLevels whose ((kind, level) :: seen) levels

def checkFilterValue (key : String) (item : Value) (at_ : String) : Except Error Unit :=
  if key = "priority" then
    match item.asU64 with
    | some n =>
        if n ≤ 4 then .ok ()
        else .error (.badRequest s!"{at_} holds {shown item}; a priority is an integer from 0 to 4")
    | none =>
        .error (.badRequest s!"{at_} holds {shown item}; a priority is an integer from 0 to 4")
  else match item.asStr with
    | some text =>
        if text = "" then
          .error
            (.badRequest
              s!"{at_} holds an empty string, which is refused rather than read as absent")
        else if textOk text then
          if key = "state-type" ∧ !LINEAR_STATE_TYPES.contains text then
            .error (.badRequest
              s!"{at_} holds {shown item}; a state type is one of {commaList LINEAR_STATE_TYPES}")
          else .ok ()
        else .error (.badRequest
          s!"{at_} holds {shown item}; a value is a non-empty string without control characters")
    | none => .error (.badRequest
        s!"{at_} holds {shown item}; a value is a non-empty string without control characters")

def checkFilterValues (key at_ : String) : List Value → Except Error Unit
  | [] => .ok ()
  | item :: items => do
      checkFilterValue key item at_
      checkFilterValues key at_ items

def checkFilterFields (whose : String) : List (String × Value) → Except Error Unit
  | [] => .ok ()
  | (key, value) :: fields => do
      if !GROUPING_FILTER_KEYS.contains key then
        .error (.badRequest
          s!"{whose} has unknown filter key {shownStr key}; allowed: {commaList GROUPING_FILTER_KEYS}")
      else
        let at_ := s!"{whose} key {shownStr key}"
        match value with
        | .array [] => .error (.badRequest s!"{at_} is an empty list; leave the key out instead")
        | .array items => checkFilterValues key at_ items
        | single => checkFilterValues key at_ [single]
        checkFilterFields whose fields

def checkFilter (filter : List (String × Value)) (whose : String) : Except Error Unit :=
  if filter.isEmpty then .error
    (.badRequest s!"{whose} names no keys; a board filter must select something")
  else checkFilterFields whose filter

def GroupingMapping.validateAs (m : GroupingMapping) (whose : String) : Except Error Unit := do
  if m.levels.isEmpty then
    .error (.badRequest s!"{whose} levels names no level; a mapping needs at least one level")
  else
    checkLevels whose [] m.levels
    checkFilter m.filter s!"{whose} filter"

/-! ## Configs -/

structure SpaceGrouping where
  space : String
  mapping : GroupingMapping

/-- The whole grouping config: `spaces` in configuration order. -/
structure GroupingConfig where
  global : GroupingMapping
  spaces : List SpaceGrouping

def validateSpaceName (space : String) : Except Error Unit :=
  if textOk space then .ok ()
  else .error (.badRequest
    s!"space name {shownStr space} is refused; a space name is non-empty text without control characters")

/-- The text that names a space's own mapping in a refusal. -/
def spaceWhose (space : String) : String := s!"the mapping for space {shownStr space}"

/-- `names` holds the spaces before. -/
def validateSpaces (names : List String) : List SpaceGrouping → Except Error Unit
  | [] => .ok ()
  | entry :: entries => do
      validateSpaceName entry.space
      if entry.space ∈ names then
        .error (.badRequest s!"space {shownStr entry.space} is mapped more than once")
      else
        entry.mapping.validateAs (spaceWhose entry.space)
        validateSpaces (entry.space :: names) entries

def GroupingConfig.validate (c : GroupingConfig) : Except Error Unit := do
  c.global.validateAs "the global mapping"
  validateSpaces [] c.spaces

/-- The mapping in force for one space: `space` is `none` when it is the global mapping. -/
structure ResolvedGrouping where
  space : Option String
  mapping : GroupingMapping

/-! ## The mapping the board groups by -/

/-- A custom view's board preferences and a team's workflow states. -/
structure ViewPreferences where
  issueGrouping : Option String
  issueSubGrouping : Option String
  columnOrderBoard : List String
  hiddenColumns : List String
  hiddenRows : List String

structure WorkflowState where
  id : String
  name : String
  kind : String

/-- How one board is grouped. -/
inductive BoardGrouping where
  /-- With the space selector the global mapping's `space` level filters on. -/
  | configured (mapping : GroupingMapping) (space : Option String)
  | view (view : ViewPreferences) (states : List WorkflowState)
  | team (states : List WorkflowState)

/-- A space override replaces the global mapping; nothing merges. -/
def choose (config : Option GroupingConfig) (space : String) (view : Option ViewPreferences)
    (states : List WorkflowState) : BoardGrouping :=
  match config, view with
  | some config, _ =>
      match config.spaces.find? fun s => s.space == space with
      | some entry => .configured entry.mapping none
      | none => .configured config.global (some space)
  | none, some view => .view view states
  | none, none => .team states

end HerdrBoard.LocalState
