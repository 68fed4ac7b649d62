import HerdrBoard.Lib.Ledger
import HerdrBoard.LocalState.Grouping
import Mathlib.Data.Int.Order.Basic
import Mathlib.Data.List.Sort
import Mathlib.Data.Prod.Lex
import Mathlib.Data.String.Basic
import Mathlib.Order.BooleanAlgebra.Basic

/-!
# The grouping engine

Issues and the grouping in force become the tabs of a board, their columns, and swimlanes across
the columns. -/

open Lib HerdrBoard.Core HerdrBoard.LocalState

namespace HerdrBoard.Grouping

/-! ## Issues -/

structure IssueState where
  id : String
  name : String
  kind : String

structure IssueTeam where
  id : String
  key : String

structure IssueNamed where
  id : String
  name : String

structure IssueCycle where
  id : String
  number : Option Int
  name : String

structure IssueParent where
  id : String
  identifier : String

structure IssueLabel where
  id : String
  name : String
  parent : Option IssueNamed

/-- One issue as Linear returns it; a text another process left out is empty. -/
structure GroupingIssue where
  id : String
  identifier : String
  state : Option IssueState
  team : Option IssueTeam
  project : Option IssueNamed
  projectMilestone : Option IssueNamed
  cycle : Option IssueCycle
  assignee : Option IssueNamed
  priority : Option Int
  parent : Option IssueParent
  labels : List IssueLabel

/-! ## The board -/

structure LinearLane where
  key : String
  label : String
  issues : List String
  deriving DecidableEq

structure LinearGroup where
  key : String
  label : String
  kind : Option String
  issues : List String
  lanes : List LinearLane
  deriving DecidableEq

structure LinearTab where
  key : String
  label : String
  groups : List LinearGroup
  deriving DecidableEq

def DEFAULT_TAB : String := "Board"

def UNGROUPED_COLUMN : String := "Issues"

def identifier (issue : GroupingIssue) : String :=
  if issue.identifier = "" then issue.id else issue.identifier

/-- An identifier's text and number, so that `X-9` is before `X-10`. -/
def natural (identifier : String) : String × Int :=
  match rsplitOnce '-' identifier with
  | some (stem, number) =>
      match (digitsValue number.toList).bind fun _ => parseI64 number.toList with
      | some n => (stem, n)
      | none => (identifier, 0)
  | none => (identifier, 0)

/-! ## Groups -/

structure SortKey where
  none : Bool
  rank : Int
  stem : String
  number : Int
  text : String
  id : String

def SortKey.default : SortKey :=
  { none := false, rank := 0, stem := "", number := 0, text := "", id := "" }

/-- Field by field, in the order of the declaration. -/
def SortKey.order (s : SortKey) : Bool ×ₗ Int ×ₗ String ×ₗ Int ×ₗ String ×ₗ String :=
  toLex (s.none, toLex (s.rank, toLex (s.stem, toLex (s.number, toLex (s.text, s.id)))))

structure Group where
  key : String
  label : String
  kind : Option String
  sort : SortKey

def Group.order (g : Group) :
    (Bool ×ₗ Int ×ₗ String ×ₗ Int ×ₗ String ×ₗ String) ×ₗ String ×ₗ String :=
  toLex (g.sort.order, toLex (g.label, g.key))

theorem Group.key_eq_of_order {a b : Group} (h : a.order = b.order) : a.key = b.key :=
  congrArg (fun o => (ofLex (ofLex o).2).2) h

def noneGroup (kind : String) : Group :=
  let field := (stripPrefix "label-group:" kind).getD kind
  { key := "", label := s!"No {field}", kind := none,
    sort := { SortKey.default with none := true } }

/-- `lowercase` is `str::to_lowercase`. -/
def named (lowercase : String → String) (id name : String) (sort : SortKey) : Group :=
  let label := if name = "" then id else name
  { key := id, label, kind := none, sort := { sort with text := lowercase label, id } }

def priorityName (p : Int) : Option String :=
  if p = 1 then some "Urgent"
  else if p = 2 then some "High"
  else if p = 3 then some "Medium"
  else if p = 4 then some "Low"
  else none

variable (lowercase : String → String)

def byId (node : Option IssueNamed) : Option Group :=
  (node.filter fun n => n.id ≠ "").map fun n => named lowercase n.id n.name .default

def stateRank (kind : String) : Int := LINEAR_STATE_TYPES.findIdx fun t => t == kind

/-- The first of the groups that are least by label and key. -/
def minByText : List Group → Option Group
  | [] => none
  | g :: groups =>
      match minByText groups with
      | some least => if toLex (least.sort.text, least.key) < toLex (g.sort.text, g.key)
          then some least else some g
      | none => some g

def labelGroup (issue : GroupingIssue) (group : String) : Option Group :=
  minByText ((issue.labels.filter fun l => l.id ≠ "" && l.parent.any fun p => p.name == group).map
    fun l =>
    named lowercase l.id l.name .default)

def parentGroup (p : IssueParent) : Group :=
  let label := if p.identifier = "" then p.id else p.identifier
  let (stem, number) := natural label
  { key := p.id, label, kind := none, sort := { SortKey.default with stem, number, id := p.id } }

def cycleName (c : IssueCycle) : String :=
  match c.name, c.number with
  | "", some n => s!"Cycle {n}"
  | "", none => c.id
  | name, _ => name

def cycleGroup (c : IssueCycle) : Group :=
  named lowercase c.id (cycleName c) { SortKey.default with rank := c.number.getD 0 }

def stateGroup (s : IssueState) : Group :=
  { named lowercase s.id s.name { SortKey.default with rank := stateRank s.kind } with
    kind := if s.kind = "" then none else some s.kind }

def priorityGroup (p : Int) : Option Group :=
  (priorityName p).map fun name =>
    { key := toString p, label := name, kind := none, sort := { SortKey.default with rank := p } }

/-- An issue's group for one field kind. Keys are Linear ids, and the priority as a number. -/
def fieldGroup (issue : GroupingIssue) (kind : String) : Group :=
  let group : Option Group := match kind with
    | "team" => (issue.team.filter fun t => t.id ≠ "").map fun t =>
        named lowercase t.id t.key .default
    | "project" => byId lowercase issue.project
    | "assignee" => byId lowercase issue.assignee
    | "milestone" => byId lowercase issue.projectMilestone
    | "parent" => (issue.parent.filter fun p => p.id ≠ "").map parentGroup
    | "cycle" => (issue.cycle.filter fun c => c.id ≠ "").map (cycleGroup lowercase)
    | "state" => (issue.state.filter fun s => s.id ≠ "").map (stateGroup lowercase)
    | "priority" => issue.priority.bind priorityGroup
    | kind => (stripPrefix "label-group:" kind).bind (labelGroup lowercase issue)
  group.getD (noneGroup kind)

/-- `ticket` and `sub-ticket` do not split the board. -/
def fieldLevel (mapping : GroupingMapping) (level : String) : Option String :=
  (mapping.levels.lookup level).filter fun kind => kind ≠ "ticket" && kind ≠ "sub-ticket"

instance : Named Group String := ⟨Group.key⟩

/-- `BTreeMap::entry(key).or_insert` for each group. -/
def firstByKey (groups : List Group) : Ledger Group :=
  groups.foldl (fun byKey g => if (byKey.find? g.key).isSome then byKey else byKey.upsert g) .empty

def distinct (groups : List Group) : List Group :=
  (firstByKey groups).rows.insertionSort fun a b => a.order ≤ b.order

/-! ## The configured board -/

structure Placed where
  issue : GroupingIssue
  tab : Option Group
  column : Option Group
  row : Option Group

/-- Natural identifier order; under a `sub-ticket` level a parent leads its own children. -/
def cellOrder (issue : GroupingIssue) (subTicket : Bool) :
    (String ×ₗ Int) ×ₗ Bool ×ₗ String ×ₗ Int :=
  let own := toLex (natural (identifier issue))
  match issue.parent.filter fun p => subTicket && p.id ≠ "" && p.identifier ≠ "" with
  | some p => toLex (toLex (natural p.identifier), toLex (true, own))
  | none => toLex (own, toLex (false, own))

def issueOrder (subTicket : Bool) (issue : GroupingIssue) :
    ((String ×ₗ Int) ×ₗ Bool ×ₗ String ×ₗ Int) ×ₗ String :=
  toLex (cellOrder issue subTicket, issue.id)

/-- Whether the issue passes the space level. -/
def inSpace (mapping : GroupingMapping) (space : Option String) (issue : GroupingIssue) : Bool :=
  match fieldLevel mapping "space", space with
  | some kind, some space => (fieldGroup lowercase issue kind).label == space
  | _, _ => true

def placeIssue (mapping : GroupingMapping) (issue : GroupingIssue) : Placed where
  issue
  tab := (fieldLevel mapping "tab").map (fieldGroup lowercase issue)
  column := (fieldLevel mapping "column").map (fieldGroup lowercase issue)
  row := (fieldLevel mapping "row").map (fieldGroup lowercase issue)

def placedIssues (issues : List GroupingIssue) (mapping : GroupingMapping) (space : Option String) :
    List Placed :=
  let subTicket := mapping.levels.any fun l => l.2 == "sub-ticket"
  let sorted := issues.insertionSort fun a b => issueOrder subTicket a ≤ issueOrder subTicket b
  (sorted.filter (inSpace lowercase mapping space)).map (placeIssue lowercase mapping)

def keyOf (g : Option Group) : Option String := g.map Group.key

/-- The groups of a level that is set, and one without a group of a level that is not. -/
def levelGroups (level : Option String) (groups : List Group) : List (Option Group) :=
  match level with
  | some _ => (distinct groups).map some
  | none => [none]

def laneOf (inColumn : List Placed) (row : Group) : LinearLane where
  key := row.key
  label := row.label
  issues := (inColumn.filter fun p => keyOf p.row == some row.key).map fun p => identifier p.issue

def columnOf (inTab : List Placed) (rows : List Group) (column : Option Group) : LinearGroup :=
  let inColumn := inTab.filter fun p => keyOf p.column == keyOf column
  { key := (column.map Group.key).getD ""
    label := (column.map Group.label).getD UNGROUPED_COLUMN
    kind := column.bind Group.kind
    issues := inColumn.map fun p => identifier p.issue
    lanes := rows.map (laneOf inColumn) }

def tabOf (mapping : GroupingMapping) (placed : List Placed) (tab : Option Group) : LinearTab :=
  let inTab := placed.filter fun p => keyOf p.tab == keyOf tab
  let columns := levelGroups (fieldLevel mapping "column") (inTab.filterMap Placed.column)
  let rows := distinct (inTab.filterMap Placed.row)
  { key := (tab.map Group.key).getD ""
    label := (tab.map Group.label).getD DEFAULT_TAB
    groups := columns.map (columnOf inTab rows) }

def configured (issues : List GroupingIssue) (mapping : GroupingMapping) (space : Option String) :
    List LinearTab :=
  let placed := placedIssues lowercase issues mapping space
  (levelGroups (fieldLevel mapping "tab") (placed.filterMap Placed.tab)).map (tabOf mapping placed)

/-! ## The board without a config -/

def VIEW_GROUPINGS : List String := ["workflowState", "assignee", "priority", "label", "project"]

def orId (name id : String) : String := if name = "" then id else name

/-- The groups one issue belongs to under a view grouping; only `label` can place it in several. -/
def viewKeys (issue : GroupingIssue) (grouping : String) (states : List WorkflowState) :
    List (String × String) :=
  match grouping with
  | "assignee" =>
      match issue.assignee.filter fun a => a.id ≠ "" with
      | some a => [(a.id, orId a.name a.id)]
      | none => [("unassigned", "Unassigned")]
  | "priority" =>
      let p := issue.priority.getD 0
      [(toString p, if p = 0 then "No priority" else (priorityName p).getD (toString p))]
  | "label" =>
      match (issue.labels.filter fun l => l.id ≠ "").map fun l => (l.id, orId l.name l.id) with
      | [] => [("nolabel", "No label")]
      | keys => keys
  | "project" =>
      match issue.project.filter fun p => p.id ≠ "" with
      | some p => [(p.id, orId p.name p.id)]
      | none => [("noproject", "No project")]
  | _ =>
      let state := issue.state.getD { id := "", name := "", kind := "" }
      let name := ((states.find? fun s => s.id == state.id).map WorkflowState.name).filter fun n =>
        n ≠ ""
      [(state.id, name.getD (orId state.name state.id))]

/-- Labels by key, each from the first pair of its key. -/
abbrev Labels := List (String × String)

/-- Keys in the order of their first appearance, with their labels. -/
def appearances (pairs : List (String × String)) (seen : Labels) : Labels :=
  pairs.foldl (fun seen pair => if (seen.lookup pair.1).isSome then seen else seen ++ [pair]) seen

/-- An issue's identifier, its column keys, and its lane keys when the view has lanes. -/
structure Member where
  id : String
  columns : List String
  rows : Option (List String)

/-- What the view decides before it sees an issue. -/
structure Fallback where
  usable : Bool
  grouping : String
  subGrouping : Option String
  columnOrder : List String
  hiddenColumns : List String
  hiddenRows : List String

def fallbackOf (view : Option ViewPreferences) : Fallback :=
  let usable := (view.bind ViewPreferences.issueGrouping).any VIEW_GROUPINGS.contains
  let view := view.filter fun _ => usable
  { usable
    grouping := (view.bind ViewPreferences.issueGrouping).getD "workflowState"
    subGrouping := (view.bind ViewPreferences.issueSubGrouping).filter VIEW_GROUPINGS.contains
    columnOrder := (view.map ViewPreferences.columnOrderBoard).getD []
    hiddenColumns := (view.map ViewPreferences.hiddenColumns).getD []
    hiddenRows := (view.map ViewPreferences.hiddenRows).getD [] }

namespace Fallback

variable (v : Fallback) (issues : List GroupingIssue) (states : List WorkflowState)

def member (issue : GroupingIssue) : Member where
  id := identifier issue
  columns := (viewKeys issue v.grouping states).map Prod.fst
  rows := v.subGrouping.map fun g => (viewKeys issue g states).map Prod.fst

/-- `order.contains` before each push. -/
def pushNew (order keys : List String) : List String :=
  keys.foldl (fun order key => if key ∈ order then order else order ++ [key]) order

def columnLabels : Labels :=
  issues.foldl (fun seen issue => appearances (viewKeys issue v.grouping states) seen) []

def order : List String :=
  let seeded :=
    if v.grouping ≠ "workflowState" then v.columnOrder.filter fun k =>
      !(states.map WorkflowState.id).contains k
    else if v.columnOrder.isEmpty then
      (states.filter fun s => v.usable || s.kind ≠ "canceled").map WorkflowState.id
    else v.columnOrder
  pushNew seeded ((v.columnLabels issues states).map Prod.fst)

def rowLabels (g : String) : Labels :=
  issues.foldl (fun seen issue => appearances (viewKeys issue g states) seen) []

/-- The lanes of a view that has them. -/
def lanes : Option (List String) :=
  v.subGrouping.map fun g =>
    let labels := rowLabels issues states g
    let rows := if g = "workflowState" then
        (states.filter fun s => (labels.lookup s.id).isSome).map WorkflowState.id
      else []
    (pushNew rows (labels.map Prod.fst)).filter fun k => !v.hiddenRows.contains k

/-- The keys that are seen for the first time. -/
def firstSeen (seen : List String) : List String → List String
  | [] => []
  | key :: keys => if key ∈ seen then firstSeen seen keys else key :: firstSeen (key :: seen) keys

def laneOf (here : List Member) (row : String) : LinearLane where
  key := row
  label := ((v.subGrouping.bind fun g => (rowLabels issues states g).lookup row)).getD ""
  issues := (here.filter fun m => (m.rows.getD []).contains row).map Member.id

def columnOf (key : String) : LinearGroup :=
  let state := states.find? fun s => s.id == key
  let here := (issues.map (v.member states)).filter fun m => m.columns.contains key
  { key
    label := ((v.columnLabels issues states).lookup key).getD
      ((state.map fun s => orId s.name key).getD key)
    kind := if v.grouping = "workflowState" then (state.map WorkflowState.kind).filter fun k =>
      k ≠ "" else none
    issues := (here.filter fun m => m.rows.all fun rows => rows.any fun r =>
      !v.hiddenRows.contains r).map Member.id
    lanes := ((v.lanes issues states).getD []).map (v.laneOf issues states here) }

def groups : List LinearGroup :=
  ((firstSeen [] (v.order issues states)).filter fun k => !v.hiddenColumns.contains k).map
    (v.columnOf issues states)

end Fallback

def fallback (issues : List GroupingIssue) (view : Option ViewPreferences)
    (states : List WorkflowState) :
    List LinearTab :=
  [{ key := "", label := DEFAULT_TAB, groups := (fallbackOf view).groups issues states }]

def groupBoard (issues : List GroupingIssue) : BoardGrouping → List LinearTab
  | .configured mapping space => configured lowercase issues mapping space
  | .view view states => fallback issues (some view) states
  | .team states => fallback issues none states

end HerdrBoard.Grouping
