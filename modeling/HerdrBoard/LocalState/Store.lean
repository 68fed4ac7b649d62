import HerdrBoard.LocalState.Grouping
import HerdrBoard.Lib.Ledger
import HerdrBoard.Lib.Outcome
import HerdrBoard.Lib.Table
import Mathlib.Data.List.Sort
import Mathlib.Data.Prod.Lex
import Mathlib.Data.String.Basic

/-!
# Linear-mode local state

The `linear_*` tables, and the statements that read and write them.
-/

open Lib HerdrBoard.Core

namespace HerdrBoard.LocalState

/-! ## Rows -/

/-- One stored mapping; the global one has no space. -/
structure GroupingRow where
  id : Int
  space : Option String
  position : Int
  mapping : GroupingMapping

structure SpaceBinding where
  herdrSession : String
  space : String
  projectId : String
  displayName : Option String
  teamIds : List String
  view : Option Value

inductive WorktreeBindingState where
  | bound
  | misplaced
  | stale
  deriving DecidableEq, Repr

/-- `carried` keeps plugin fields the board does not interpret. -/
structure WorktreeBinding where
  worktreePath : String
  issue : String
  state : WorktreeBindingState
  branch : Option String
  tab : Option String
  displayName : Option String
  teamIds : List String
  view : Option Value
  carried : List (String × Value)

structure SessionScope where
  sessionId : String
  teamId : String
  teamKey : Option String
  deriving DecidableEq, Repr

structure ScopeRepo where
  scopeKey : String
  repoPath : String
  position : Int
  deriving DecidableEq, Repr

inductive MarkKind where
  | attention
  | question
  | done
  | suggestion
  deriving DecidableEq, Repr

inductive ShowOutcome where
  | accepted
  | rejected
  | withdrawn
  | expired
  deriving DecidableEq, Repr

def ShowOutcome.asStr : ShowOutcome → String
  | .accepted => "accepted"
  | .rejected => "rejected"
  | .withdrawn => "withdrawn"
  | .expired => "expired"

/-- Who wrote a mark, note or request. -/
structure LinearOwner where
  herdrSocket : Option String := none
  herdrPaneId : Option String := none
  claudeSessionId : Option String := none
  deriving DecidableEq, Repr

def LinearOwner.isAnonymous (o : LinearOwner) : Bool :=
  o.herdrSocket.isNone && o.herdrPaneId.isNone && o.claudeSessionId.isNone

structure Mark where
  id : Int
  herdrSession : String
  space : String
  issue : String
  kind : MarkKind
  text : Option String
  detail : Option Value
  createdBy : Option String
  createdAt : String
  owner : LinearOwner

structure Note where
  id : Int
  herdrSession : String
  space : String
  issue : String
  body : String
  author : String
  createdAt : String
  owner : LinearOwner
  deriving DecidableEq, Repr

structure ShowRequest where
  id : Int
  herdrSession : String
  space : String
  issue : String
  reason : Option String
  requestedBy : Option String
  createdAt : String
  acknowledgedAt : Option String
  owner : LinearOwner
  expiresAt : Option String
  outcome : Option ShowOutcome
  deriving DecidableEq, Repr

/-- A request with no readable `expires_at` never expires. -/
def ShowRequest.isOverdue (r : ShowRequest) (now : Int) : Bool :=
  (r.expiresAt.bind parseTimestamp).any fun expires => expires ≤ now

/-- `outcome IS NULL AND acknowledged_at IS NULL`. -/
def ShowRequest.isUnanswered (r : ShowRequest) : Bool := r.outcome.isNone && r.acknowledgedAt.isNone

def ShowRequest.isPending (r : ShowRequest) (now : Int) : Bool := r.isUnanswered && !r.isOverdue now

/-- Who a caller says it is. -/
structure ActivityClaims where
  herdrSocket : Option String := none
  herdrPaneId : Option String := none
  herdrWorkspaceId : Option String := none
  cardId : Option Int := none
  runId : Option Int := none
  deriving DecidableEq, Repr

structure Activity where
  id : Int
  herdrSession : String
  space : Option String
  toolName : String
  issue : Option String
  claims : ActivityClaims
  createdAt : String
  deriving DecidableEq, Repr

instance : Keyed GroupingRow := ⟨GroupingRow.id⟩
instance : Keyed Mark := ⟨Mark.id⟩
instance : Keyed Note := ⟨Note.id⟩
instance : Keyed ShowRequest := ⟨ShowRequest.id⟩
instance : Keyed Activity := ⟨Activity.id⟩
instance : Named SpaceBinding (String ×ₗ String) := ⟨fun b => toLex (b.herdrSession, b.space)⟩
instance : Named WorktreeBinding String := ⟨WorktreeBinding.worktreePath⟩
instance : Named SessionScope String := ⟨SessionScope.sessionId⟩
instance : Named ScopeRepo (String ×ₗ String) := ⟨fun r => toLex (r.scopeKey, r.repoPath)⟩

/-! ## The store -/

/-- The unique indexes of `linear_grouping`: one row a space, one global row, one
override a position. -/
def GroupingUnique (rows : List GroupingRow) : Prop :=
  rows.Pairwise fun a b => a.space ≠ b.space ∧
    (a.space.isSome = true → b.space.isSome = true → a.position ≠ b.position)

instance (rows : List GroupingRow) : Decidable (GroupingUnique rows) :=
  inferInstanceAs (Decidable (List.Pairwise _ rows))

structure LinearDb where
  grouping : Table GroupingRow
  groupingUnique : GroupingUnique grouping.rows
  spaceBindings : Ledger SpaceBinding
  worktreeBindings : Ledger WorktreeBinding
  sessionScopes : Ledger SessionScope
  scopeRepos : Ledger ScopeRepo
  marks : Table Mark
  notes : Table Note
  showRequests : Table ShowRequest
  activity : Table Activity

def LinearDb.fresh : LinearDb where
  grouping := .empty
  groupingUnique := List.Pairwise.nil
  spaceBindings := .empty
  worktreeBindings := .empty
  sessionScopes := .empty
  scopeRepos := .empty
  marks := .empty
  notes := .empty
  showRequests := .empty
  activity := .empty

abbrev LinearM := EStateM Error LinearDb

/-- A statement on `linear_grouping`. -/
def execGrouping (f : Table GroupingRow → Table GroupingRow) : LinearM Unit := fun db =>
  if h : GroupingUnique (f db.grouping).rows then .ok ()
    { db with grouping := f db.grouping, groupingUnique := h }
  else .error (.sqlite .unique) db

/-! ## Grouping -/

/-- The mapping of the row, if it is the space's own. -/
def LinearDb.groupingRow? (db : LinearDb) (space : Option String) : Option GroupingRow :=
  db.grouping.rows.find? fun r => decide (r.space = space)

def byPosition (a b : GroupingRow) : Prop := a.position ≤ b.position

instance : DecidableRel byPosition :=
  fun a b => inferInstanceAs (Decidable (a.position ≤ b.position))

/-- The overrides, `ORDER BY position`. -/
def LinearDb.overrides (db : LinearDb) : List GroupingRow :=
  (db.grouping.select fun r => r.space.isSome).insertionSort byPosition

def GroupingRow.entry (r : GroupingRow) : SpaceGrouping :=
  { space := r.space.getD "", mapping := r.mapping }

def LinearDb.groupingConfig (db : LinearDb) : Option GroupingConfig :=
  (db.groupingRow? none).map fun global =>
    { global := global.mapping, spaces := db.overrides.map GroupingRow.entry }

/-- A space override is returned whole; the global mapping never fills its gaps. -/
def LinearDb.groupingForSpace (db : LinearDb) (space : String) : Option ResolvedGrouping :=
  match db.groupingRow? (some space) with
  | some own => some { space := some space, mapping := own.mapping }
  | none => (db.groupingRow? none).map fun global => { space := none, mapping := global.mapping }

/-- `ON CONFLICT (space) DO UPDATE`, else `INSERT` at the position. -/
def putGrouping (space : Option String) (position : Int) (mapping : GroupingMapping)
    (t : Table GroupingRow) :
    Table GroupingRow :=
  if t.rows.any fun r => decide (r.space = space) then
    t.update (fun r => decide (r.space = space)) (fun r => { r with mapping }) fun _ => rfl
  else t.insert (fun id => { id, space, position, mapping }) fun _ => rfl

/-- `coalesce(max(position) + 1, 0)` over the overrides. -/
def nextPosition (t : Table GroupingRow) : Int :=
  match ((t.select fun r => r.space.isSome).map GroupingRow.position).max? with
  | some top => top + 1
  | none => 0

def setGroupingGlobal (mapping : GroupingMapping) : LinearM Unit := do
  fromExcept (mapping.validateAs "the global mapping")
  execGrouping (putGrouping none 0 mapping)

/-- An existing space keeps its position; a new one goes last. -/
def setGroupingSpace (space : String) (mapping : GroupingMapping) : LinearM Unit := do
  fromExcept (validateSpaceName space)
  fromExcept (mapping.validateAs (spaceWhose space))
  transaction do
    let db ← get
    refuse ((db.groupingRow? none).isNone = true) (.badRequest
      (s!"space {shownStr space} cannot be mapped before a global mapping exists; " ++
        "a space mapping replaces the global one, so one must exist"))
    execGrouping fun t => putGrouping (some space) (nextPosition t) mapping t

def removeGroupingSpace (space : String) : LinearM Bool := do
  let db ← get
  execGrouping fun t => t.delete fun r => decide (r.space = some space)
  pure (db.grouping.rows.any fun r => decide (r.space = some space))

def insertOverrides (position : Nat) : List SpaceGrouping → LinearM Unit
  | [] => pure ()
  | entry :: entries => do
      execGrouping fun t => t.insert
        (fun id => { id, space := some entry.space, position := position,
                     mapping := entry.mapping }) fun _ => rfl
      insertOverrides (position + 1) entries

/-- Replaces the whole config in one transaction, after validating all of it. -/
def replaceGrouping (config : GroupingConfig) : LinearM Unit := do
  fromExcept config.validate
  transaction do
    execGrouping fun _ => .empty
    execGrouping fun t => t.insert
      (fun id => { id, space := none, position := 0, mapping := config.global }) fun _ => rfl
    insertOverrides 0 config.spaces

/-! ## Bindings and scopes -/

/-- The hyphenated form of a UUID. -/
def isHyphenatedUuid (chars : List Char) : Bool :=
  let hex (c : Char) : Bool := c.isDigit || ('a' ≤ c && c ≤ 'f') || ('A' ≤ c && c ≤ 'F')
  match chars.splitOn '-' with
  | [a, b, c, d, e] =>
      [a, b, c, d, e].map List.length == [8, 4, 4, 4, 12] && [a, b, c, d, e].all fun p => p.all hex
  | _ => false

/-- A Linear issue key (`WEB-123`) or an issue UUID in its hyphenated form. -/
def isIssueIdentifier (value : String) : Bool :=
  if value.utf8ByteSize = 36 then isHyphenatedUuid value.toList
  else match splitOnceChars '-' value.toList with
    | none => false
    | some (team, number) =>
        1 ≤ team.length && team.length ≤ 10 && (team.headD ' ').isUpper &&
          (team.all fun c => c.isUpper || c.isDigit) &&
          1 ≤ number.length && number.length ≤ 9 && number.headD '0' ≠ '0' &&
            number.all Char.isDigit

def requireIssue (value : String) : Except Error Unit :=
  if isIssueIdentifier value then .ok ()
  else .error (.badRequest
    s!"issue {shownStr value} is neither a Linear issue key (like WEB-123) nor an issue UUID")

/-- `project-<id>.team-<id>`, `team-<id>` or `project-<id>`. -/
def isScopeKey (value : String) : Bool :=
  let idOk (id : List Char) : Bool := id ≠ [] && id.all fun c => c.isAlphanum || c = '-' || c = '_'
  match stripPrefixChars "project-".toList value.toList with
  | some rest =>
      match splitTeam rest with
      | some (project, team) => idOk project && idOk team
      | none => idOk rest
  | none => (stripPrefixChars "team-".toList value.toList).any idOk
where
  /-- The text before and after the first `.team-`. -/
  splitTeam : List Char → Option (List Char × List Char)
    | [] => none
    | c :: rest =>
        match stripPrefixChars ".team-".toList (c :: rest) with
        | some team => some ([], team)
        | none => (splitTeam rest).map fun (project, team) => (c :: project, team)

def validateTeamIds : List String → Except Error Unit
  | [] => .ok ()
  | id :: ids => do
      requireText id "team id"
      validateTeamIds ids

def SpaceBinding.check (b : SpaceBinding) : Except Error Unit := do
  requireText b.herdrSession "herdr session"
  requireText b.space "space"
  requireText b.projectId "project id"
  requireOptionalText b.displayName "display name"
  validateTeamIds b.teamIds

def setSpaceBinding (b : SpaceBinding) : LinearM Unit := do
  fromExcept b.check
  modify fun db => { db with spaceBindings := db.spaceBindings.upsert b }

def LinearDb.spaceBinding (db : LinearDb) (herdrSession space : String) : Option SpaceBinding :=
  db.spaceBindings.find? (toLex (herdrSession, space))

def WorktreeBinding.check (b : WorktreeBinding) : Except Error Unit := do
  requireAbsolutePath b.worktreePath "worktree path"
  requireIssue b.issue
  requireOptionalText b.branch "branch"
  requireOptionalText b.tab "tab"
  requireOptionalText b.displayName "display name"
  validateTeamIds b.teamIds

def setWorktreeBinding (b : WorktreeBinding) : LinearM Unit := do
  fromExcept b.check
  modify fun db => { db with worktreeBindings := db.worktreeBindings.upsert b }

def LinearDb.worktreeBinding (db : LinearDb) (path : String) : Option WorktreeBinding :=
  db.worktreeBindings.find? path

def LinearDb.listWorktreeBindings (db : LinearDb) : List WorktreeBinding := db.worktreeBindings.rows

def removeWorktreeBinding (path : String) : LinearM Bool := do
  let db ← get
  modify fun db => { db with worktreeBindings := db.worktreeBindings.delete path }
  pure (db.worktreeBinding path).isSome

def SessionScope.check (s : SessionScope) : Except Error Unit := do
  requireText s.sessionId "session id"
  requireText s.teamId "team id"
  requireOptionalText s.teamKey "team key"

def setSessionScope (s : SessionScope) : LinearM Unit := do
  fromExcept s.check
  modify fun db => { db with sessionScopes := db.sessionScopes.upsert s }

def LinearDb.sessionScope (db : LinearDb) (sessionId : String) : Option SessionScope :=
  db.sessionScopes.find? sessionId

def LinearDb.reposOf (db : LinearDb) (scopeKey : String) : List ScopeRepo :=
  db.scopeRepos.rows.filter fun r => decide (r.scopeKey = scopeKey)

/-- `coalesce(max(position) + 1, 0)` over the scope. -/
def LinearDb.nextRepoPosition (db : LinearDb) (scopeKey : String) : Int :=
  match ((db.reposOf scopeKey).map ScopeRepo.position).max? with
  | some top => top + 1
  | none => 0

/-- A path already listed keeps its place. -/
def addScopeRepo (scopeKey repoPath : String) : LinearM Unit := do
  refuse (isScopeKey scopeKey = false) (.badRequest
    s!"scope key {shownStr scopeKey} is refused; a scope key is project-<id>.team-<id>, team-<id> or project-<id>")
  fromExcept (requireAbsolutePath repoPath "repository path")
  modify fun db =>
    if (db.scopeRepos.find? (toLex (scopeKey, repoPath))).isSome then db
    else
      { db with
        scopeRepos :=
          db.scopeRepos.upsert { scopeKey, repoPath, position := db.nextRepoPosition scopeKey } }

/-- The repositories of a scope, `ORDER BY position`. -/
def LinearDb.scopeRepoPaths (db : LinearDb) (scopeKey : String) : List String :=
  ((db.reposOf scopeKey).insertionSort fun a b => a.position ≤ b.position).map ScopeRepo.repoPath

/-! ## Marks and notes -/

structure NewMark where
  session : String
  space : String
  issue : String
  kind : MarkKind
  text : Option String
  detail : Option Value
  createdBy : Option String
  owner : LinearOwner

def NewMark.check (m : NewMark) : Except Error Unit := do
  requireText m.space "space"
  requireIssue m.issue
  requireOptionalText m.createdBy "mark author"
  requireText m.session "herdr session"

/-- `now` is `datetime('now')`, here and below. -/
def addMark (now : String) (m : NewMark) : LinearM Mark := do
  fromExcept m.check
  let db ← get
  let row (id : Int) : Mark :=
    { id, herdrSession := m.session, space := m.space, issue := m.issue,
      kind := m.kind, text := m.text,
      detail := m.detail, createdBy := m.createdBy, createdAt := now, owner := m.owner }
  modify fun db => { db with marks := db.marks.insert row fun _ => rfl }
  pure (row db.marks.nextKey)

def LinearDb.listMarks (db : LinearDb) (session space : String) : List Mark :=
  db.marks.select fun m => m.herdrSession == session && m.space == space

def LinearDb.spaceIssueMarks (db : LinearDb) (session space issue : String) : List Mark :=
  db.marks.select fun m => m.herdrSession == session && m.space == space && m.issue == issue

def LinearDb.issueMarks (db : LinearDb) (issue : String) : List Mark :=
  db.marks.select fun m => m.issue == issue

def removeMarks : List Mark → LinearM Unit
  | [] => pure ()
  | mark :: marks => do
      modify fun db => { db with marks := db.marks.delete fun m => m.id == mark.id }
      removeMarks marks

structure NewNote where
  session : String
  space : String
  issue : String
  body : String
  author : String
  owner : LinearOwner

def NewNote.check (n : NewNote) : Except Error Unit := do
  requireText n.space "space"
  requireIssue n.issue
  requireText n.author "note author"
  requireText n.session "herdr session"
  if n.body = "" then .error (.badRequest "a note body must not be empty") else .ok ()

def addNote (now : String) (n : NewNote) : LinearM Note := do
  fromExcept n.check
  let db ← get
  let row (id : Int) : Note :=
    { id, herdrSession := n.session, space := n.space, issue := n.issue,
      body := n.body, author := n.author, createdAt := now, owner := n.owner }
  modify fun db => { db with notes := db.notes.insert row fun _ => rfl }
  pure (row db.notes.nextKey)

def LinearDb.listNotes (db : LinearDb) (session space : String) (issue : Option String) :
    List Note :=
  db.notes.select fun n =>
    n.herdrSession == session && n.space == space && issue.all fun i => i == n.issue

def removeNotes : List Note → LinearM Unit
  | [] => pure ()
  | note :: notes => do
      modify fun db => { db with notes := db.notes.delete fun n => n.id == note.id }
      removeNotes notes

/-! ## Show requests -/

structure NewShowRequest where
  session : String
  space : String
  issue : String
  reason : Option String
  requestedBy : Option String
  owner : LinearOwner
  /-- `datetime(?, 'unixepoch')` of the expiry. -/
  expiresAt : Option String

def NewShowRequest.check (r : NewShowRequest) : Except Error Unit := do
  requireText r.space "space"
  requireIssue r.issue
  requireOptionalText r.requestedBy "requester"
  requireText r.session "herdr session"

def addShowRequest (now : String) (r : NewShowRequest) : LinearM ShowRequest := do
  fromExcept r.check
  let db ← get
  let row (id : Int) : ShowRequest :=
    { id, herdrSession := r.session, space := r.space, issue := r.issue, reason := r.reason,
      requestedBy := r.requestedBy, createdAt := now, acknowledgedAt := none, owner := r.owner,
      expiresAt := r.expiresAt, outcome := none }
  modify fun db => { db with showRequests := db.showRequests.insert row fun _ => rfl }
  pure (row db.showRequests.nextKey)

/-- `UPDATE linear_show_requests … WHERE id = ?1 AND outcome IS NULL AND
acknowledged_at IS NULL`. -/
def updateUnanswered (id : Int) (f : ShowRequest → ShowRequest) (hf : ∀ r, (f r).id = r.id) :
    LinearM Bool := do
  let db ← get
  modify fun db =>
    { db with showRequests := db.showRequests.update (fun r => r.id == id && r.isUnanswered) f hf }
  pure ((db.showRequests.find? id).any ShowRequest.isUnanswered)

/-- Keeps the request's id and `created_at`. -/
def refreshShowRequest (id : Int) (reason requestedBy expiresAt : Option String) :
    LinearM Bool := do
  fromExcept (requireOptionalText requestedBy "requester")
  updateUnanswered id (fun r => { r with reason, requestedBy, expiresAt }) fun _ => rfl

/-- Sets `outcome` and `acknowledged_at` together; false when the request is unknown or
already closed. -/
def closeShowRequest (now : String) (id : Int) (outcome : ShowOutcome) : LinearM Bool :=
  updateUnanswered id (fun r => { r with outcome := some outcome, acknowledgedAt := some now })
    fun _ => rfl

/-- Requests with no outcome yet, including overdue ones the sweep has not reached. -/
def LinearDb.openShowRequests (db : LinearDb) (scope : Option (String × String)) :
    List ShowRequest :=
  db.showRequests.select fun r =>
    (scope.all fun s => r.herdrSession == s.1 && r.space == s.2) && r.isUnanswered

def LinearDb.pendingShowRequests (db : LinearDb) (session space : String) (now : Int) :
    List ShowRequest :=
  (db.openShowRequests (some (session, space))).filter fun r => r.isPending now

def RECENT_RESOLVED_SHOW_REQUESTS : Nat := 20

/-- `ORDER BY acknowledged_at DESC, id DESC`. -/
def closedAfter (a b : ShowRequest) : Prop :=
  b.acknowledgedAt.getD "" < a.acknowledgedAt.getD "" ∨
    (b.acknowledgedAt.getD "" = a.acknowledgedAt.getD "" ∧ b.id ≤ a.id)

instance : DecidableRel closedAfter := fun _ _ => inferInstanceAs (Decidable (_ ∨ _))

def LinearDb.recentResolvedShowRequests (db : LinearDb) (session space : String) :
    List ShowRequest :=
  ((db.showRequests.select fun r => r.herdrSession == session && r.space == space &&
    r.outcome.isSome).insertionSort closedAfter).take RECENT_RESOLVED_SHOW_REQUESTS

/-- Close the overdue requests of the list; the spaces that changed. -/
def expireEach (sqlNow : String) (now : Int) : List ShowRequest → LinearM (List String)
  | [] => pure []
  | request :: requests => do
      let closed ← if request.isOverdue now then closeShowRequest sqlNow request.id .expired
          else pure false
      let spaces ← expireEach sqlNow now requests
      pure (if closed then request.space :: spaces else spaces)

/-- Marks every overdue request `expired` and returns the spaces that changed, sorted
and once each. -/
def expireOverdue (sqlNow : String) (now : Int) : LinearM (List String) :=
  transaction do
    let db ← get
    let spaces ← expireEach sqlNow now (db.openShowRequests none)
    pure (spaces.dedup.insertionSort (· ≤ ·))

/-! ## Activity -/

def LINEAR_ACTIVITY_KEEP_PER_SPACE : Nat := 500

def MAX_TOOL_NAME : Nat := 128

def isToolName (value : String) : Bool :=
  1 ≤ value.utf8ByteSize && value.utf8ByteSize ≤ MAX_TOOL_NAME &&
    value.toList.all fun c => c.isAlphanum || c = '_' || c = '-' || c = '.' || c = ':'

structure NewActivity where
  session : String
  space : Option String
  toolName : String
  issue : Option String
  claims : ActivityClaims

def NewActivity.check (a : NewActivity) : Except Error Unit := do
  requireOptionalText a.space "space"
  requireText a.session "herdr session"
  if isToolName a.toolName then pure ()
  else .error (.badRequest
    (s!"tool name {shownStr a.toolName} is refused; a tool name is 1 to {MAX_TOOL_NAME} " ++
    "ASCII letters, digits, \x60_\x60, \x60-\x60, \x60.\x60 or \x60:\x60"))
  match a.issue with
  | some issue => requireIssue issue
  | none => pure ()
  requireOptionalText a.claims.herdrSocket "herdr socket claim"
  requireOptionalText a.claims.herdrPaneId "herdr pane claim"
  requireOptionalText a.claims.herdrWorkspaceId "herdr workspace claim"

/-- Records one Linear write and prunes the session's space to its newest rows. -/
def recordActivity (now : String) (a : NewActivity) : LinearM Activity := do
  fromExcept a.check
  transaction do
    let db ← get
    let row (id : Int) : Activity :=
      { id, herdrSession := a.session, space := a.space, toolName := a.toolName, issue := a.issue,
        claims := a.claims, createdAt := now }
    modify fun db => { db with activity := db.activity.insert row fun _ => rfl }
    let ofSpace (r : Activity) : Bool := r.herdrSession == a.session && r.space == a.space
    modify fun db =>
      let kept := ((db.activity.select ofSpace).reverse.take LINEAR_ACTIVITY_KEEP_PER_SPACE).map
        Activity.id
      { db with activity := db.activity.delete fun r => ofSpace r && !kept.contains r.id }
    pure (row db.activity.nextKey)

end HerdrBoard.LocalState
