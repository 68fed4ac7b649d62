import HerdrBoard.LocalState.Store

/-!
# Local-state requests

The request-level units of work over the Linear-mode tables. What comes from outside the store is in
an `Outside`: the clock's texts, the worktree of a directory, and the parsers of JSON text and of
grouping values. -/

open Lib HerdrBoard.Core

namespace HerdrBoard.LocalState

inductive LocalStateRejection where
  | refused (message : String)
  | unknownIssue (space issue : String)
  | issueBoundElsewhere (issue holder : String)
  | missing (message : String)
  | showRequestAnswered (id : Int) (outcome : Option ShowOutcome)
  deriving DecidableEq, Repr

inductive LocalStateError where
  | rejected (r : LocalStateRejection)
  | store (e : Error)
  deriving DecidableEq, Repr

abbrev LsM := EStateM LocalStateError LinearDb

/-- Run a store statement; its errors become store errors. -/
def ofStore {α : Type} (x : LinearM α) : LsM α := fun db =>
  match x db with
  | .ok a db => .ok a db
  | .error e db => .error (.store e) db

@[simp] theorem ofStore_ok {α : Type} {x : LinearM α} {db t : LinearDb} {a : α} :
    ofStore x db = .ok a t ↔ x db = .ok a t := by
  unfold ofStore
  cases x db <;> simp

theorem ofStore_finalState {α : Type} (x : LinearM α) (db : LinearDb) :
    finalState (ofStore x db) = finalState (x db) := by
  unfold ofStore
  cases x db <;> rfl

/-- A statement does to the store the same under either error type. -/
theorem respects_ofStore {α : Type} {R : LinearDb → LinearDb → Prop} {x : LinearM α}
    (h : Respects R x) : Respects R (ofStore x) := by
  intro db
  rw [ofStore_finalState]
  exact h db

def refused {α : Type} (message : String) : Except LocalStateError α :=
  .error (.rejected (.refused message))

structure Outside where
  /-- `datetime('now')`. -/
  sqlNow : String
  /-- `datetime(?, 'unixepoch')`. -/
  datetime : Int → Option String
  /-- The root of the git worktree containing a directory. -/
  resolveWorktree : String → Except LocalStateRejection String
  /-- JSON text, refusing an object that repeats a key. -/
  parseJson : String → Except String Value
  /-- A whole config or one mapping as a person writes it. -/
  configOfValue : Value → Except String GroupingConfig
  mappingOfValue : Value → Except String GroupingMapping

/-- A store alone: one clock, no directories, no parsers. -/
def Outside.silent : Outside where
  sqlNow := "2026-01-01 00:00:00"
  datetime _ := none
  resolveWorktree _ := .error (.missing "no worktree")
  parseJson _ := .error "no JSON"
  configOfValue _ := .error "no config"
  mappingOfValue _ := .error "no mapping"

variable (out : Outside)

/-! ## Checks and cleaning -/

def checkIssue (issue : String) : Except LocalStateError Unit :=
  if isIssueIdentifier issue then .ok ()
  else refused
    s!"issue {debugStr issue} is neither a Linear issue key (like WEB-123) nor an issue UUID"

def checkSpace (space : String) : Except LocalStateError Unit :=
  if textOk space then .ok ()
  else refused
    s!"space {debugStr space} is refused; a space is non-empty text without control characters"

/-- A Linear project or view id. -/
def checkLinearId (id what : String) : Except LocalStateError Unit :=
  if 1 ≤ id.utf8ByteSize ∧ id.utf8ByteSize ≤ 64 ∧ (id.toList.headD ' ').isAlphanum ∧
      id.toList.all (fun c => c.isAlphanum || c = '_' || c = '-') = true then .ok ()
  else refused
    (s!"{what} {debugStr id} is refused; it must be 1 to 64 ASCII letters, digits, \x60_\x60 or \x60-\x60, " ++
    "starting with a letter or digit")

def optLine (text : Option String) : Option String := text.map stripControlAndFormat

def cleanClaims (c : ActivityClaims) : ActivityClaims :=
  { c with
    herdrSocket := optLine c.herdrSocket
    herdrPaneId := optLine c.herdrPaneId
    herdrWorkspaceId := optLine c.herdrWorkspaceId }

/-- The space a change is announced for: the explicit one, else the claimed Herdr workspace. -/
def claimedSpace (space : Option String) (claims : ActivityClaims) : Option String :=
  (optLine (space <|> claims.herdrWorkspaceId)).filter fun s => s ≠ ""

/-- Blank claims are no claim. -/
def cleanOwner (o : LinearOwner) : LinearOwner :=
  let field (value : Option String) : Option String := (optLine value).filter fun v => v ≠ ""
  { herdrSocket := field o.herdrSocket
    herdrPaneId := field o.herdrPaneId
    claudeSessionId := field o.claudeSessionId }

def requireOwner (owner : LinearOwner) (what : String) : Except LocalStateError LinearOwner :=
  if (cleanOwner owner).isAnonymous then
    refused (s!"{what} needs the caller's herdr socket, pane or Claude session; " ++
      "a row written without them can only be cleared on the board")
  else .ok (cleanOwner owner)

/-- The name in a tail `sessions/<name>/herdr.sock`. -/
def sessionNameFromSocket (path : String) : Option String := do
  let rest ← stripSuffix "/herdr.sock" path
  let (parent, name) ← rsplitOnce '/' rest
  let lastSeg := match rsplitOnce '/' parent with
    | some (_, seg) => seg
    | none => parent
  if lastSeg = "sessions" ∧ name ≠ "" then some name else none

/-- The Herdr session a caller's socket names; `default` without one. -/
def herdrSession (socket : Option String) : String :=
  (socket.bind sessionNameFromSocket).getD "default"

def claimedSession (claims : ActivityClaims) : Option String :=
  claims.herdrSocket.map fun socket => herdrSession (some socket)

def isSaveIssue (toolName : String) : Bool :=
  toolName == "save_issue" || (stripSuffix "__save_issue" toolName).isSome

/-! ## Reads -/

structure LinearState where
  space : String
  spaceBindings : List SpaceBinding
  worktreeBindings : List WorktreeBinding
  grouping : Option ResolvedGrouping
  marks : List Mark
  notes : List Note
  showRequests : List ShowRequest
  resolvedShowRequests : List ShowRequest

def LinearDb.linearState (db : LinearDb) (session space : String) (now : Int) : LinearState where
  space := space
  spaceBindings := (db.spaceBinding session space).toList
  worktreeBindings := db.listWorktreeBindings
  grouping := db.groupingForSpace space
  marks := db.listMarks session space
  notes := db.listNotes session space none
  showRequests := db.pendingShowRequests session space now
  resolvedShowRequests := db.recentResolvedShowRequests session space

/-- Whether local state already names the issue: a worktree binding, or activity recorded in the
session's space. -/
def LinearDb.issueHasLocalState (db : LinearDb) (session space issue : String) : Bool :=
  (db.worktreeBindings.rows.any fun b => b.issue == issue) ||
    (!(db.activity.select fun a => a.herdrSession == session && a.space == some space && a.issue ==
      some issue).isEmpty)

def requireKnown (session space issue : String) (knownElsewhere : Bool) : LsM Unit := do
  fromExcept (checkSpace space)
  fromExcept (checkIssue issue)
  let db ← get
  refuse ((knownElsewhere || db.issueHasLocalState session space issue) = false)
    (.rejected (.unknownIssue space issue))

theorem readOnly_requireKnown {session space issue : String} {known : Bool} :
    ReadOnly (requireKnown session space issue known) :=
  (readOnly_fromExcept _).bind fun _ => (readOnly_fromExcept _).bind fun _ =>
    readOnly_get.bind fun _ => readOnly_refuse _ _

/-! ## Worktree bindings -/

structure LinearChange (α : Type) where
  before : Option α
  after : Option α

structure LinearBindParams where
  cwd : String
  issue : String
  space : Option String := none
  branch : Option String := none
  tab : Option String := none
  displayName : Option String := none
  claims : ActivityClaims := {}

structure LinearBound where
  change : LinearChange WorktreeBinding
  clearedSuggestions : List Mark

/-- The first worktree other than `exceptPath` that holds the issue. -/
def LinearDb.issueHolder (db : LinearDb) (issue exceptPath : String) : Option String :=
  (db.worktreeBindings.rows.find? fun b => b.issue == issue && b.worktreePath != exceptPath).map
    WorktreeBinding.worktreePath

/-- The worktree a suggestion names. -/
def Mark.namedWorktree (m : Mark) : Option String :=
  (m.detail.bind fun d => d.get "worktree_path").bind Value.asStr

def clearSuggestionsNaming (issue worktree : String) : LinearM (List Mark) := do
  let db ← get
  let suggestions := (db.issueMarks issue).filter fun m => m.kind == .suggestion
  if suggestions.any fun m => m.namedWorktree == some worktree then
    removeMarks suggestions
    pure suggestions
  else pure []

/-- The binding a bind writes: what the request does not name is kept. -/
def boundWorktree (p : LinearBindParams) (path : String) (kept : Option WorktreeBinding) :
    WorktreeBinding where
  worktreePath := path
  issue := p.issue
  state := .bound
  branch := optLine p.branch
  tab := optLine p.tab
  displayName := optLine p.displayName
  teamIds := (kept.map WorktreeBinding.teamIds).getD []
  view := kept.bind WorktreeBinding.view
  carried := (kept.map WorktreeBinding.carried).getD []

/-- Binding the worktree a suggestion names clears every suggestion on the issue, in every space. -/
def linearBind (p : LinearBindParams) : LsM LinearBound := do
  fromExcept (checkIssue p.issue)
  let path ← fromExcept ((out.resolveWorktree p.cwd).mapError LocalStateError.rejected)
  transaction do
    let db ← get
    match db.issueHolder p.issue path with
    | some holder => throw (.rejected (.issueBoundElsewhere p.issue holder))
    | none =>
        let before := db.worktreeBinding path
        ofStore (setWorktreeBinding (boundWorktree p path before))
        let db ← get
        let after := db.worktreeBinding path
        let clearedSuggestions ← ofStore (clearSuggestionsNaming p.issue path)
        pure { change := { before, after }, clearedSuggestions }

structure LinearUnbindParams where
  cwd : String
  space : Option String := none
  claims : ActivityClaims := {}

/-- `trim_end_matches('/')`. -/
def trimSlashes (s : String) : String :=
  String.ofList (s.toList.reverse.dropWhile (· == '/')).reverse

/-- A worktree that no longer exists is also found by the path exactly as given. -/
def linearUnbind (p : LinearUnbindParams) : LsM (LinearChange WorktreeBinding) := do
  let db ← get
  let path ← fromExcept (match out.resolveWorktree p.cwd with
    | .ok path => .ok path
    | .error rejection =>
        match db.worktreeBinding (trimSlashes p.cwd) with
        | some binding => .ok binding.worktreePath
        | none => .error (LocalStateError.rejected rejection))
  let before ← okOr (db.worktreeBinding path)
      (.rejected (.missing s!"worktree {path} has no binding"))
  let _ ← ofStore (removeWorktreeBinding path)
  pure { before := some before, after := none }

/-! ## Space bindings -/

structure LinearSpaceBindParams where
  space : String
  project : String
  view : Option String := none
  claims : ActivityClaims := {}

/-- The binding keeps its display name, and its team ids while the project is unchanged. -/
def linearSpaceBind (p : LinearSpaceBindParams) : LsM (LinearChange SpaceBinding) := do
  fromExcept (checkSpace p.space)
  fromExcept (checkLinearId p.project "project id")
  match p.view with
  | some view => fromExcept (checkLinearId view "view id")
  | none => pure ()
  let session := (claimedSession (cleanClaims p.claims)).getD "default"
  transaction do
    let db ← get
    let before := db.spaceBinding session p.space
    ofStore (setSpaceBinding
      { herdrSession := session
        space := p.space
        projectId := p.project
        displayName := before.bind SpaceBinding.displayName
        teamIds := ((before.filter fun b => b.projectId == p.project).map SpaceBinding.teamIds).getD
          []
        view := p.view.map fun id => .object [("id", .string id)] })
    let db ← get
    pure { before, after := db.spaceBinding session p.space }

/-! ## Grouping -/

structure LinearGroupingSetParams where
  space : Option String := none
  text : Option String := none

/-- The value of a grouping text, with its strings cleaned. -/
def groupingValue (what text : String) : Except LocalStateError Value :=
  match out.parseJson text with
  | .ok value => .ok (sanitiseJson value)
  | .error e => refused s!"{what} is not valid JSON: {e}"

def parseConfig (text : String) : Except LocalStateError GroupingConfig := do
  let value ← groupingValue out "config" text
  match out.configOfValue value with
  | .ok config => .ok config
  | .error e => refused s!"config is not a grouping config: {e}"

def parseMapping (text : String) : Except LocalStateError GroupingMapping := do
  let value ← groupingValue out "mapping" text
  match out.mappingOfValue value with
  | .ok mapping => .ok mapping
  | .error e => refused s!"mapping is not a grouping mapping: {e}"

/-- The entry of the space gets the mapping; a new space goes last. -/
def putSpace (space : String) (mapping : GroupingMapping) (spaces : List SpaceGrouping) :
    List SpaceGrouping :=
  if spaces.any fun e => e.space == space then replaceFirst spaces
  else spaces ++ [({ space := space, mapping := mapping } : SpaceGrouping)]
where
  replaceFirst : List SpaceGrouping → List SpaceGrouping
    | [] => []
    | e :: rest => if e.space == space then { e with mapping } :: rest else e :: replaceFirst rest

/-- The config a change asks for. -/
def changedGrouping (before : Option GroupingConfig) (p : LinearGroupingSetParams) :
    Except LocalStateError GroupingConfig :=
  match p.space, p.text with
  | none, none => refused "a grouping change without a space needs text: a whole grouping config"
  | none, some text => parseConfig out text
  | some space, some text => do
      checkSpace space
      let mapping ← parseMapping out text
      match before with
      | some config => .ok { config with spaces := putSpace space mapping config.spaces }
      | none =>
          refused (s!"space {debugStr space} cannot be mapped before a global mapping exists; " ++
          "a space mapping replaces the global one, so one must exist")
  | some space, none =>
      match before.filter fun c => c.spaces.any fun e => e.space == space with
      | some config => .ok { config with spaces := config.spaces.filter fun e => e.space != space }
      | none => .error (.rejected (.missing s!"space {debugStr space} has no grouping override"))

/-- Without `write` a preview: the same parse and validation, no write. -/
def linearGroupingChange (p : LinearGroupingSetParams) (write : Bool) :
    LsM (LinearChange GroupingConfig) := do
  let db ← get
  let before := db.groupingConfig
  let after ← fromExcept (changedGrouping out before p)
  fromExcept (after.validate.mapError LocalStateError.store)
  if write then
    ofStore (replaceGrouping after)
    let db ← get
    pure { before, after := db.groupingConfig }
  else pure { before, after := some after }

/-! ## Marks -/

def replaceMark (m : NewMark) : LsM (List Mark × Mark) :=
  transaction do
    let db ← get
    let before := (db.spaceIssueMarks m.session m.space m.issue).filter fun old =>
      old.kind == m.kind && old.owner == m.owner
    ofStore (removeMarks before)
    let after ← ofStore (addMark out.sqlNow m)
    pure (before, after)

structure LinearMarkSetParams where
  space : String
  issue : String
  kind : MarkKind := .attention
  text : Option String := none
  createdBy : Option String := none
  owner : LinearOwner := {}

/-- Replaces the caller's own mark of the same kind on the issue. -/
def linearMarkSet (p : LinearMarkSetParams) (knownElsewhere : Bool) : LsM (List Mark × Mark) := do
  refuse (p.kind = .suggestion)
    (.rejected (.refused ("mark kind suggestion is set only by the board, from a reported " ++
    "Linear write; a mark is attention, question or done")))
  let owner := cleanOwner p.owner
  let session := herdrSession owner.herdrSocket
  requireKnown session p.space p.issue knownElsewhere
  replaceMark out
    { session, space := p.space, issue := p.issue, kind := p.kind,
      text := p.text.map stripControlKeepLines, detail := none, createdBy := optLine p.createdBy,
      owner }

structure LinearMarkUnmarkParams where
  space : String
  issue : String
  kind : Option MarkKind := none
  owner : LinearOwner := {}

/-- Removes the caller's own marks on the issue, of the kind or of every kind. -/
def linearMarkUnmark (p : LinearMarkUnmarkParams) : LsM (List Mark) := do
  fromExcept (checkSpace p.space)
  fromExcept (checkIssue p.issue)
  let owner ← fromExcept (requireOwner p.owner "unmark")
  let session := herdrSession owner.herdrSocket
  transaction do
    let db ← get
    let removed := (db.spaceIssueMarks session p.space p.issue).filter fun m =>
      (p.kind.all fun k => k == m.kind) && m.owner == owner
    ofStore (removeMarks removed)
    pure removed

/-! ## Notes -/

structure LinearNoteSetParams where
  space : String
  issue : String
  body : String
  author : String
  owner : LinearOwner := {}

/-- Replaces the author's note on the issue. -/
def linearNoteSet (p : LinearNoteSetParams) (knownElsewhere : Bool) : LsM (List Note × Note) := do
  let owner := cleanOwner p.owner
  let session := herdrSession owner.herdrSocket
  requireKnown session p.space p.issue knownElsewhere
  let body := stripControlKeepLines p.body
  let author := stripControlAndFormat p.author
  transaction do
    let db ← get
    let before := (db.listNotes session p.space (some p.issue)).filter fun n => n.author == author
    ofStore (removeNotes before)
    let after ← ofStore (addNote out.sqlNow
        { session, space := p.space, issue := p.issue, body, author, owner })
    pure (before, after)

/-! ## Show requests -/

structure LinearShowRequestParams where
  space : String
  issue : String
  reason : Option String := none
  requestedBy : Option String := none
  owner : LinearOwner := {}

def saturate (n : Int) : Int := max (-9223372036854775808) (min n 9223372036854775807)

/-- A re-ask by the same owner for an issue it already has pending refreshes that request instead
of adding one. -/
def linearShowRequest (p : LinearShowRequestParams) (knownElsewhere : Bool) (now ttlSecs : Int) :
    LsM (LinearChange ShowRequest) := do
  let owner := cleanOwner p.owner
  let session := herdrSession owner.herdrSocket
  requireKnown session p.space p.issue knownElsewhere
  let reason := optLine p.reason
  let requestedBy := optLine p.requestedBy
  let expiresAt := out.datetime (saturate (now + ttlSecs))
  transaction do
    let db ← get
    match (db.pendingShowRequests session p.space now).find? fun r =>
      r.issue == p.issue && r.owner == owner with
    | some before =>
        let _ ← ofStore (refreshShowRequest before.id reason requestedBy expiresAt)
        let db ← get
        pure { before := some before, after := db.showRequests.find? before.id }
    | none =>
        let after ← ofStore (addShowRequest out.sqlNow
          { session, space := p.space, issue := p.issue, reason, requestedBy, owner, expiresAt })
        pure { before := none, after := some after }

/-- What a refused answer says the request was. -/
def ShowRequest.closedOutcome (r : ShowRequest) (now : Int) : Option ShowOutcome :=
  r.outcome <|> if r.isOverdue now then some .expired else none

def closePending (id : Int) (outcome : ShowOutcome) (now : Int) :
    LsM (LinearChange ShowRequest) := do
  let db ← get
  let before ← okOr (db.showRequests.find? id)
      (.rejected (.missing s!"show request {id} does not exist"))
  refuse (before.isPending now = false)
    (.rejected (.showRequestAnswered id (before.closedOutcome now)))
  let closed ← ofStore (closeShowRequest out.sqlNow id outcome)
  refuse (closed = false) (.rejected (.showRequestAnswered id (before.closedOutcome now)))
  let db ← get
  pure { before := some before, after := db.showRequests.find? id }

def linearShowAccept (id now : Int) : LsM (LinearChange ShowRequest) :=
  closePending out id .accepted now

def linearShowDismiss (id now : Int) : LsM (LinearChange ShowRequest) :=
  closePending out id .rejected now

structure LinearShowWithdrawParams where
  space : String
  issue : String
  owner : LinearOwner := {}

def linearShowWithdraw (p : LinearShowWithdrawParams) (now : Int) :
    LsM (LinearChange ShowRequest) := do
  fromExcept (checkSpace p.space)
  fromExcept (checkIssue p.issue)
  let owner ← fromExcept (requireOwner p.owner "withdraw")
  let session := herdrSession owner.herdrSocket
  let db ← get
  let request ← okOr
    ((db.pendingShowRequests session p.space now).find? fun r => r.issue == p.issue &&
      r.owner == owner)
    (.rejected (.missing
      s!"no pending show request of this caller's for {p.issue} in space {p.space}"))
  closePending out request.id .withdrawn now

/-! ## Activity -/

structure LinearActivityRecordParams where
  toolName : String
  issue : Option String := none
  space : Option String := none
  cwd : Option String := none
  claims : ActivityClaims := {}

inductive LinearActivityOutcome where
  | linked
  | suggested
  | recorded
  deriving DecidableEq, Repr

structure LinearActivityRecordResult where
  activity : Activity
  outcome : LinearActivityOutcome
  binding : Option (LinearChange WorktreeBinding)
  mark : Option (List Mark × Mark)
  clearedSuggestions : List Mark

def optString (value : Option String) : Value :=
  match value with
  | some s => .string s
  | none => .null

def optInt (value : Option Int) : Value :=
  match value with
  | some (.ofNat n) => .number (.posInt n)
  | some n => .number (.negInt n)
  | none => .null

/-- The detail of a suggestion mark. -/
def suggestionDetail (worktree cwd : Option String) (claims : ActivityClaims) : Value :=
  sanitiseJson (.object (Value.collectFields
    [ ("worktree_path", optString worktree),
      ("cwd", optString cwd),
      ("herdr_socket", optString claims.herdrSocket),
      ("herdr_pane_id", optString claims.herdrPaneId),
      ("herdr_workspace_id", optString claims.herdrWorkspaceId),
      ("card_id", optInt claims.cardId),
      ("run_id", optInt claims.runId) ]))

/-- Whether the claims carry a socket and a pane, and the claimed session's space is bound. -/
def LinearDb.knownSession (db : LinearDb) (claims : ActivityClaims) (space : String) : Bool :=
  match claimedSession claims, claims.herdrPaneId with
  | some session, some _ => (db.spaceBinding session space).isSome
  | _, _ => false

/-- What a recorded `save_issue` of the issue leads to. -/
def linkOrSuggest (p : LinearActivityRecordParams) (issue space : String) (claims : ActivityClaims)
    (activity : Activity) : LsM LinearActivityRecordResult := do
  let worktree := p.cwd.bind fun cwd => (out.resolveWorktree cwd).toOption
  let recorded : LinearActivityRecordResult :=
    { activity, outcome := .recorded, binding := none, mark := none, clearedSuggestions := [] }
  let db ← get
  let known := db.knownSession claims space
  if (worktree.bind db.worktreeBinding).any fun b => b.issue == issue then pure recorded
  else
    match worktree.filter fun path =>
        known && (db.worktreeBinding path).isNone && (db.issueHolder issue path).isNone with
    | some path =>
        let bound ← linearBind out { cwd := path, issue, space := some space, claims }
        pure { activity, outcome := .linked, binding := some bound.change, mark := none,
               clearedSuggestions := bound.clearedSuggestions }
    | none =>
        let mark ← replaceMark out
          { session := herdrSession claims.herdrSocket, space, issue,
            kind := .suggestion, text := none,
            detail := some (suggestionDetail worktree p.cwd claims), createdBy :=
          some p.toolName, owner := {} }
        pure { activity, outcome := .suggested, binding := none,
               mark := some mark, clearedSuggestions := [] }

/-- A `save_issue` links the calling session, or leaves a suggestion mark; any other tool records
activity only. -/
def linearActivityRecord (p : LinearActivityRecordParams) : LsM LinearActivityRecordResult := do
  match p.issue with
  | some issue => fromExcept (checkIssue issue)
  | none => pure ()
  let claims := cleanClaims p.claims
  let space := claimedSpace p.space claims
  let activity ← ofStore (recordActivity out.sqlNow
    { session := herdrSession claims.herdrSocket, space, toolName := p.toolName,
      issue := p.issue, claims })
  match p.issue, space with
  | some issue, some space =>
      if isSaveIssue p.toolName then linkOrSuggest out p issue space claims activity
      else pure { activity, outcome := .recorded, binding := none,
                  mark := none, clearedSuggestions := [] }
  | _, _ => pure { activity,
                   outcome := .recorded, binding := none, mark := none, clearedSuggestions := [] }

end HerdrBoard.LocalState
