import HerdrBoard.Grouping.Engine
import HerdrBoard.LocalState.ImportTwice

/-!
# Which mapping a space is under

The grouping config names a space by its Herdr label. The snapshot looks the label up, and the local
state the workspace id. -/

open Lib HerdrBoard.Core HerdrBoard.LocalState HerdrBoard.Grouping

namespace HerdrBoard.Linear

/-! ## The filter of a mapping -/

def DEFAULT_EXCLUDED_STATE_TYPES : List String := ["triage", "backlog"]

def clauseValues : Value → List Value
  | .array items => items
  | single => [single]

def clauseStrings (raw : Value) : List String := (clauseValues raw).filterMap Value.asStr

def texts (items : List String) : Value := .array (items.map Value.string)

/-- `{field: {op: value}}`. -/
def comparison (field op : String) (value : Value) : Value :=
  .object [(field, .object [(op, value)])]

def anyOf (alternatives : List Value) : Value := .object [("or", .array alternatives)]

def idOr (field : String) (values : List String) : Value :=
  anyOf [comparison "id" "in" (texts values), comparison field "in" (texts values)]

/-- The team key and the number of an issue identifier. -/
def parentKey (value : String) : Option (String × Nat) :=
  match splitOnceChars '-' value.toList with
  | none => none
  | some (team, number) =>
      let teamOk := 1 ≤ team.length && team.length ≤ 10 && (team.headD ' ').isAlpha &&
        team.all Char.isAlphanum
      let numberOk := 1 ≤ number.length && number.length ≤ 9 && number.all Char.isDigit
      if teamOk && numberOk
        then some (String.ofList (team.map Char.toUpper), (String.ofList number).toNat?.getD 0)
      else none

def parentNumber (parent : String × Nat) : Value :=
  .object [("and", .array
    [.object [("team", comparison "key" "eq" (.string parent.1))],
      comparison "number" "eq" (.number (.posInt parent.2))])]

def clause (key : String) (raw : Value) : Value :=
  let values := clauseStrings raw
  if key = "team" then
    .object
      [("team", anyOf [comparison "id" "in" (texts values), comparison "key" "in" (texts values),
      comparison "name" "in" (texts values)])]
  else if key = "project" then .object [("project", idOr "name" values)]
  else if key = "milestone" then .object [("projectMilestone", idOr "name" values)]
  else if key = "cycle" then .object [("cycle", idOr "name" values)]
  else if key = "state" then .object [("state", idOr "name" values)]
  else if key = "label" then .object [("labels", .object [("some", idOr "name" values)])]
  else if key = "state-type" then .object [("state", comparison "type" "in" (texts values))]
  else if key = "assignee" then
    let me := if values.contains "me" then [comparison "isMe" "eq" (.bool true)] else []
    let rest := values.filter fun v => v ≠ "me"
    let named := if rest.isEmpty then [] else
      [comparison "id" "in" (texts rest), comparison "name" "in" (texts rest),
        comparison "displayName" "in" (texts rest), comparison "email" "in" (texts rest)]
    match me ++ named with
    | [only] => .object [("assignee", only)]
    | alternatives => .object [("assignee", anyOf alternatives)]
  else
    let ids := values.filter fun v => (parentKey v).isNone
    let byId := if ids.isEmpty then [] else [comparison "id" "in" (texts ids)]
    .object [("parent", anyOf (byId ++ (values.filterMap parentKey).map parentNumber))]

/-- The mapping's filter as a Linear `IssueFilter`; triage and backlog are left out unless it
names states. -/
def issueFilter (mapping : GroupingMapping) : Value :=
  let named := ["team", "project", "milestone", "cycle", "assignee", "state", "parent", "label",
    "state-type"].filterMap fun key => (mapping.filter.lookup key).map (clause key)
  let excluded :=
    if (mapping.filter.lookup "state").isNone && (mapping.filter.lookup "state-type").isNone then
      [.object [("state", comparison "type" "nin" (texts DEFAULT_EXCLUDED_STATE_TYPES))]]
    else []
  let priority := ((mapping.filter.lookup "priority").map fun raw =>
    comparison "priority" "in" (.array (clauseValues raw))).toList
  .object [("and", .array (named ++ excluded ++ priority))]

/-! ## What a snapshot reads -/

/-- A workspace of a Herdr session. -/
structure HerdrWorkspace where
  workspaceId : String
  label : String

/-- What is read under one short lock of the store. -/
structure Local where
  binding : Option SpaceBinding
  config : Option GroupingConfig

def readLocal (db : LinearDb) (session space : String) : Local where
  binding := db.spaceBinding session space
  config := db.groupingConfig

/-- The live label of the workspace, else the name it was bound under, else its id. -/
def spaceLabel (herdr : Option (List HerdrWorkspace)) (binding : Option SpaceBinding)
    (space : String) : String :=
  let live := (herdr.bind fun workspaces => workspaces.find? fun w => w.workspaceId == space).map
    HerdrWorkspace.label
  let named := (live.filter fun label => label ≠ "") <|> binding.bind SpaceBinding.displayName
  (named.filter fun label => label ≠ "").getD space

/-- Which mapping is in force for the label, and where it comes from. -/
def mappingInForce (config : GroupingConfig) (label : String) : String × GroupingMapping :=
  match config.spaces.find? fun s => s.space == label with
  | some entry => ("space", entry.mapping)
  | none => ("global", config.global)

/-- What to read from Linear for a space. -/
structure FetchPlan where
  projectId : String
  /-- The binding's custom view; none under a grouping config. -/
  viewId : Option String
  filter : Option Value
  label : String

def planFor (binding : SpaceBinding) (config : Option GroupingConfig) (label : String) :
    FetchPlan :=
  let filter := config.map fun c => issueFilter (mappingInForce c label).2
  { projectId := binding.projectId
    viewId :=
      match filter with
      | some _ => none
      | none => binding.view.bind fun view =>
          ((view.get "id").bind Value.asStr).filter fun id => id ≠ ""
    filter
    label }

section Snapshot

variable (db : LinearDb) (herdr : Option (List HerdrWorkspace)) (session space : String)

/-- How a snapshot of the space groups what it reads. -/
def snapshotGrouping (view : Option ViewPreferences) (states : List WorkflowState) :
    BoardGrouping :=
  let stored := readLocal db session space
  choose stored.config (spaceLabel herdr stored.binding space) view states

/-- What a snapshot of the space reads from Linear; nothing when the space is not bound. -/
def snapshotPlan : Option FetchPlan :=
  let stored := readLocal db session space
  stored.binding.map fun binding =>
    planFor binding stored.config (spaceLabel herdr stored.binding space)

end Snapshot

/-! ## One lookup -/

/-- The mapping a board is grouped by. -/
def mappingOf : BoardGrouping → Option GroupingMapping
  | .configured mapping _ => some mapping
  | .view _ _ => none
  | .team _ => none

variable {db : LinearDb} {config : GroupingConfig} {space : String}

theorem mappingOf_choose (config : Option GroupingConfig) (label : String)
    (view : Option ViewPreferences) (states : List WorkflowState) :
    mappingOf (choose config label view states) = config.map fun c =>
      (mappingInForce c label).2 := by
  cases config with
  | none => cases view <;> rfl
  | some config =>
      simp only [choose, mappingInForce, Option.map_some]
      cases config.spaces.find? fun s => s.space == label <;> rfl

theorem groupingForSpace_mapping (h : db.Rooted) (space : String) :
    (db.groupingForSpace space).map ResolvedGrouping.mapping =
      db.groupingConfig.map fun c => (mappingInForce c space).2 := by
  cases hglobal : db.groupingRow? none with
  | none =>
      have hnone : db.groupingRow? (some space) = none := by
        apply groupingRow?_eq_none.mpr
        intro r hr hspace
        obtain ⟨g, hg, hgspace⟩ := h space ⟨r, hr, hspace⟩
        exact groupingRow?_eq_none.mp hglobal g hg hgspace
      simp [LinearDb.groupingForSpace, LinearDb.groupingConfig, hglobal, hnone]
  | some global =>
      simp only [LinearDb.groupingForSpace, LinearDb.groupingConfig, hglobal, Option.map_some,
        mappingInForce, find?_overrides]
      cases db.groupingRow? (some space) <;> rfl

/-! ## Two names of a space -/

/-- The mapping a space of the name has of its own. -/
def ownMapping (config : GroupingConfig) (name : String) : Option GroupingMapping :=
  (config.spaces.find? fun s => s.space == name).map SpaceGrouping.mapping

/-- The config has one mapping of its own for both names or for neither, or for one of them the
global mapping. -/
def MapsAlike (config : GroupingConfig) (a b : String) : Prop :=
  ownMapping config a = ownMapping config b ∨
    (ownMapping config a = none ∧ ownMapping config b = some config.global) ∨
    (ownMapping config a = some config.global ∧ ownMapping config b = none)

theorem mappingInForce_eq (name : String) :
    (mappingInForce config name).2 = (ownMapping config name).getD config.global := by
  unfold mappingInForce ownMapping
  cases config.spaces.find? fun s => s.space == name <;> rfl

theorem mapsAlike_iff {a b : String} :
    MapsAlike config a b ↔ (mappingInForce config a).2 = (mappingInForce config b).2 := by
  rw [mappingInForce_eq, mappingInForce_eq, MapsAlike]
  cases ownMapping config a <;> cases ownMapping config b <;> simp [eq_comm]

/-- The local state reports the mapping that the snapshot groups and filters by. -/
def Agree (db : LinearDb) (herdr : Option (List HerdrWorkspace))
    (session space : String) (now : Int)
    (view : Option ViewPreferences) (states : List WorkflowState) : Prop :=
  let reported := (db.linearState session space now).grouping.map ResolvedGrouping.mapping
  reported = mappingOf (snapshotGrouping db herdr session space view states) ∧
    ∀ plan, snapshotPlan db herdr session space = some plan → plan.filter = reported.map issueFilter

theorem state_agrees_iff_maps_alike (h : Reached db) (herdr : Option (List HerdrWorkspace))
    (session space : String)
    (now : Int) (view : Option ViewPreferences) (states : List WorkflowState) :
    Agree db herdr session space now view states ↔ ∀ config, db.groupingConfig = some config →
      MapsAlike config space (spaceLabel herdr (db.spaceBinding session space) space) := by
  have hreported : (db.linearState session space now).grouping.map ResolvedGrouping.mapping =
      db.groupingConfig.map fun c => (mappingInForce c space).2 :=
    groupingForSpace_mapping h.rooted space
  have hgrouped : mappingOf (snapshotGrouping db herdr session space view states) =
      db.groupingConfig.map fun c =>
      (mappingInForce c (spaceLabel herdr (db.spaceBinding session space) space)).2 :=
        mappingOf_choose _ _ _ _
  rw [Agree, hreported, hgrouped]
  constructor
  · rintro ⟨hsame, -⟩ config hconfig
    rw [hconfig] at hsame
    exact mapsAlike_iff.mpr (Option.some.inj hsame)
  · intro halike
    have hsame : (db.groupingConfig.map fun c => (mappingInForce c space).2) =
        db.groupingConfig.map fun c =>
        (mappingInForce c (spaceLabel herdr (db.spaceBinding session space) space)).2 := by
      cases hconfig : db.groupingConfig with
      | none => rfl
      | some config => exact congrArg some (mapsAlike_iff.mp (halike config hconfig))
    refine ⟨hsame, fun plan hplan => ?_⟩
    obtain ⟨binding, -, rfl⟩ := Option.map_eq_some_iff.mp hplan
    rw [hsame, Option.map_map]
    rfl

/-! ## A labelled workspace -/

def byAssignee : GroupingMapping :=
  { levels := [("column", "assignee")], filter := [("priority", .array [.number (.posInt 2)])] }

/-- A config with a mapping of its own for `web`. -/
def webConfig : LinearDb :=
  finalState (GroupingOp.run .silent (.setSpace "web" byAssignee)
    (finalState (GroupingOp.run .silent (.setGlobal urgentByTeam) .fresh)))

theorem reached_webConfig : Reached webConfig := .regrouped _ _ (.regrouped _ _ .fresh)

/-- Workspace `w1` is labelled `web`. -/
theorem state_and_snapshot_disagree :
    ¬∀ (db : LinearDb), Reached db → ∀ herdr session space now view states,
    Agree db herdr session space now view states := by
  intro h
  obtain ⟨hsame, -⟩ :=
    h webConfig reached_webConfig (some [{ workspaceId := "w1", label := "web" }]) "default"
      "w1" 0 none []
  exact absurd (congrArg (Option.map GroupingMapping.levels) hsame) (by decide +kernel)

theorem state_agrees_iff_maps_alike_unlabelled : Agree webConfig none "default" "web" 0 none [] :=
  (state_agrees_iff_maps_alike reached_webConfig none "default" "web" 0 none []).mpr fun _ _ =>
    .inl rfl

end HerdrBoard.Linear
