import HerdrBoard.LocalState.Writes
import Mathlib.Data.Finset.Insert

/-!
# The work-store import

Copies the plugin's store into the local state: insert-only by natural key. The store is a
tree of files, each read at most once in a run; a dry run keeps in `Planned` what a real run
has in its tables. -/

open Lib HerdrBoard.Core

namespace HerdrBoard.LocalState

/-! ## The store -/

/-- What opening a record file and looking at it shows. -/
structure RecordFile where
  isFile : Bool
  uid : Nat
  mode : Nat
  len : Nat
  /-- The text, or why it cannot be read. -/
  text : Except String String

inductive OpenedRecord where
  | symlink
  | failed (message : String)
  | opened (metadata : Except String RecordFile)

inductive StoreMetadata where
  | notFound
  | unreadable (message : String)
  | file
  | directory

/-- A store directory; paths are relative to it, and the directory itself is the empty path. -/
structure WorkStore where
  path : String
  metadata : StoreMetadata
  /-- Names with whether they are directories, as the file system lists them. -/
  readDir : String → Except String (List (String × Bool))
  openFile : String → OpenedRecord

/-- What the import takes from outside the store and the database. -/
structure ImportOutside extends Outside where
  euid : Nat
  /-- `board.json` read by its schema: the global mapping and the spaces in the order
  of the text. -/
  boardOfText : String → Except String (GroupingMapping × List (String × GroupingMapping))
  errorText : Error → String

inductive ImportError where
  | io (message : String)
  | badRequest (message : String)
  deriving DecidableEq, Repr

/-! ## Results -/

inductive LinearImportKind where
  | grouping
  | spaceBinding
  | worktreeBinding
  | sessionScope
  | scopeRepo
  deriving DecidableEq, Repr

structure LinearImportItem where
  kind : LinearImportKind
  key : String
  source : String
  reason : Option String
  dropped : List String
  deriving DecidableEq, Repr

structure LinearImportIgnored where
  path : String
  reason : String
  deriving DecidableEq, Repr

structure LinearImportResult where
  storeDir : String
  present : Bool
  dryRun : Bool
  imported : List LinearImportItem
  skipped : List LinearImportItem
  ignored : List LinearImportIgnored
  deriving DecidableEq, Repr

structure ImportOutcome where
  result : LinearImportResult
  changedSpaces : Finset (Option String)
  deriving DecidableEq

/-! ## The state of a run -/

/-- A worktree a run has imported, with its issue. -/
structure PlannedWorktree where
  path : String
  issue : String
  deriving DecidableEq, Repr

instance : Named PlannedWorktree String := ⟨PlannedWorktree.path⟩

structure Planned where
  global : Bool
  spaces : Finset String
  spaceBindings : Finset (String × String)
  worktrees : Ledger PlannedWorktree
  sessions : Finset String
  repos : Finset (String × String)

def Planned.empty : Planned where
  global := false
  spaces := ∅
  spaceBindings := ∅
  worktrees := .empty
  sessions := ∅
  repos := ∅

structure Import where
  db : LinearDb
  imported : List LinearImportItem
  skipped : List LinearImportItem
  ignored : List LinearImportIgnored
  changed : Finset (Option String)
  planned : Planned

abbrev ImportM := EStateM ImportError Import

structure Skip where
  key : Option String
  reason : String
  deriving DecidableEq, Repr

def Skip.new (reason : String) : Skip := { key := none, reason }

def Skip.keyed (key reason : String) : Skip := { key := some key, reason }

def ALREADY : String := "already in the board; the import never overwrites a row"

def FLAT_SESSION : String := "default"

def MAX_RECORD_BYTES : Nat := 1048576

def RETIRING_FIELDS : List String :=
  ["proposal", "consent", "consent_proposal", "pending_consent", "pending_placement", "declined",
    "pending_judgment"]

def MAPPED_BINDING_FIELDS : List String :=
  ["version", "worktree_path", "state", "issue_identifier", "updated_at",
    "branch_at_confirmation", "tab", "display_name", "team_ids", "view"]

def reasonOf (env : ImportOutside) : Error → String
  | .badRequest message => message
  | other => env.errorText other

/-! ## Recording -/

def ignore (path reason : String) : ImportM Unit :=
  modify fun run => { run with ignored := run.ignored ++ [{ path, reason }] }

def skip (kind : LinearImportKind) (source : String) (s : Skip) : ImportM Unit :=
  modify fun run =>
    { run with skipped := run.skipped ++
        [{ kind, key := s.key.getD source, source, reason := some s.reason, dropped := [] }] }

variable (env : ImportOutside) (store : WorkStore) (dryRun : Bool)

/-- Records one insert, performing it unless this is a dry run; a store refusal turns the insert
into a skip. -/
def insert (kind : LinearImportKind) (source key : String) (dropped : List String)
    (space : Option String) (write : LinearM Unit) : ImportM Bool := do
  let run ← get
  if dryRun then
    set ({ run with
      imported := run.imported ++ [{ kind, key, source, reason := none, dropped }] } : Import)
    pure true
  else match write run.db with
    | .error e db =>
        set ({ run with db } : Import)
        skip kind source (.keyed key (reasonOf env e))
        pure false
    | .ok _ db =>
        set ({ run with
                 db
                 changed := Insert.insert space run.changed
                 imported := run.imported ++ [{ kind, key, source, reason := none, dropped }] } :
                   Import)
        pure true

/-- A record of a natural key: skipped when the key is in the board or planned, or when
something blocks it. -/
structure NewRow where
  kind : LinearImportKind
  source : String
  key : String
  dropped : List String := []
  /-- The space the change is announced for. -/
  space : Option String := none
  existing : Bool
  planned : Planned → Bool
  blocked : Import → Option String := fun _ => none
  write : LinearM Unit
  plan : Planned → Planned

def importRow (row : NewRow) : ImportM Unit := do
  let run ← get
  if row.existing || row.planned run.planned then skip row.kind row.source (.keyed row.key ALREADY)
  else match row.blocked run with
    | some reason => skip row.kind row.source (.keyed row.key reason)
    | none =>
        if ← insert env dryRun row.kind row.source row.key row.dropped row.space row.write then
          modify fun run => { run with planned := row.plan run.planned }

/-! ## Reading records -/

/-- A record not owned by boardd's user, or writable by group or others, is refused. -/
def readRecord (rel : String) : Except Skip (String × Value) := do
  let opened ← match store.openFile rel with
    | .symlink => .error (.new "is a symlink, not a regular file")
    | .failed e => .error (.new s!"cannot be opened: {e}")
    | .opened metadata => .ok metadata
  let file ← opened.mapError fun e => Skip.new s!"cannot be read: {e}"
  if !file.isFile then .error (.new "is not a regular file")
  else if file.uid ≠ env.euid then
    .error (.new (s!"is owned by uid {file.uid}, not by boardd's user (uid {env.euid}); " ++
      "the plugin's trust rule refuses it"))
  else if file.mode &&& 0o020 ≠ 0
    then .error (.new "is group-writable; the plugin's trust rule refuses it")
  else if file.mode &&& 0o002 ≠ 0
    then .error (.new "is writable by others; the plugin's trust rule refuses it")
  else if file.len > MAX_RECORD_BYTES then .error (.new "is larger than 1 MiB")
  else do
    let text ← file.text.mapError fun e => Skip.new s!"cannot be read: {e}"
    let value ← (env.parseJson text).mapError fun e => Skip.new s!"is not valid JSON: {e}"
    match (value.get "version").bind Value.asU64 with
    | some v =>
        if v = 1 ∧ value.isObject = true then .ok (text, value)
        else if v > 1 then .error (.new
          s!"is version {v}, newer than the version 1 this board reads")
        else .error (.new "is not a version 1 record")
    | none => .error (.new "is not a version 1 record")

def expectPath (record : Value) (expected : String) : Except Skip Unit :=
  match (record.get "worktree_path").bind Value.asStr with
  | some path =>
      if path = expected then .ok ()
      else .error (.new s!"names {debugStr path}, which does not match its file name ({expected})")
  | none => .error (.new "has no worktree_path")

def requireState (record : Value) (allowed : List String) (what : String) : Except Skip String :=
  match (record.get "state").bind Value.asStr with
  | some state =>
      if state ∈ allowed then .ok state
      else .error
        (.new s!"is in state {debugStr state}; a {what} imports only when {commaList allowed}")
  | none => .error (.new "has no state")

/-- Plugin records store "no value" as an empty string. -/
def optionalText (record : Value) (field : String) : Except Skip (Option String) :=
  match record.get field with
  | none => .ok none
  | some .null => .ok none
  | some (.string text) =>
      let text := stripControlAndFormat text
      .ok (if text = "" then none else some text)
  | some _ => .error (.new s!"{field} is not text")

def requiredText (record : Value) (field : String) : Except Skip String := do
  match ← optionalText record field with
  | some text => .ok text
  | none => .error (.new s!"has no {field}")

def teamIdItems : List Value → Except Skip (List String)
  | [] => .ok []
  | id :: ids => do
      let text ← match (id.asStr.map stripControlAndFormat).filter fun text => text ≠ "" with
        | some text => .ok text
        | none => .error (Skip.new "team_ids holds something other than a team id")
      let rest ← teamIdItems ids
      pure (text :: rest)

def teamIds (record : Value) : Except Skip (List String) :=
  match record.get "team_ids" with
  | none => .ok []
  | some .null => .ok []
  | some (.array ids) => teamIdItems ids
  | some _ => .error (.new "team_ids is not a list")

def viewOf (record : Value) : Except Skip (Option Value) :=
  match record.get "view" with
  | none => .ok none
  | some .null => .ok none
  | some (.object fields) => .ok (some (sanitiseJson (.object fields)))
  | some _ => .error (.new "view is not an object")

def isEmptyValue : Value → Bool
  | .null => true
  | .string s => s = ""
  | .array items => items.isEmpty
  | .object fields => fields.isEmpty
  | _ => false

def droppedFields (record : Value) : List String :=
  RETIRING_FIELDS.filter fun field => (record.get field).any fun v => !isEmptyValue v

def carriedFields : Value → List (String × Value)
  | .object fields =>
      (fields.filter fun kv => !MAPPED_BINDING_FIELDS.contains kv.1 && !RETIRING_FIELDS.contains
        kv.1 && !kv.2.isNull).map fun kv => (kv.1, sanitiseJson kv.2)
  | _ => []

def bindingState (state : String) : WorktreeBindingState :=
  if state = "bound" then .bound else if state = "misplaced" then .misplaced else .stale

def worktreeBinding (record : Value) : Except Skip WorktreeBinding := do
  let path ← match ((record.get "worktree_path").bind Value.asStr).filter fun path =>
      path.startsWith "/" && textOk path with
    | some path => .ok path
    | none => .error (Skip.new "worktree_path is not an absolute path")
  let state ← requireState record ["bound", "misplaced", "stale"] "binding"
  let issue ← requiredText record "issue_identifier"
  if !isIssueIdentifier issue then
    .error (.new s!"issue {debugStr issue} is neither a Linear issue key nor an issue UUID")
  else do
    let branch ← optionalText record "branch_at_confirmation"
    let tab ← optionalText record "tab"
    let displayName ← optionalText record "display_name"
    let teamIds ← teamIds record
    let view ← viewOf record
    pure { worktreePath := path, issue,
           state := bindingState state, branch, tab, displayName, teamIds, view,
           carried := carriedFields record }

/-! ## The board config -/

/-- A mapping as JSON. -/
def mappingValue (m : GroupingMapping) : Value :=
  .object [("filter", .object m.filter),
    ("levels", .object (m.levels.map fun kv => (kv.1, .string kv.2)))]

/-- A mapping read back with its strings cleaned. -/
def cleanMapping (m : GroupingMapping) : Except Skip GroupingMapping :=
  (env.mappingOfValue (sanitiseJson (mappingValue m))).mapError Skip.new

def cleanSpaces : List (String × GroupingMapping) → Except Skip (List SpaceGrouping)
  | [] => .ok []
  | (space, mapping) :: spaces => do
      let mapping ← cleanMapping env mapping
      let rest ← cleanSpaces spaces
      pure ({ space := stripControlAndFormat space, mapping } :: rest)

def parseBoard (text : String) : Except Skip GroupingConfig := do
  let (global, spaces) ← (env.boardOfText text).mapError fun e =>
      Skip.keyed "global" s!"is not a board config: {e}"
  let spaces ← cleanSpaces env spaces
  let global ← cleanMapping env global
  let config : GroupingConfig := { global, spaces }
  (config.validate).mapError fun e => Skip.keyed "global" (reasonOf env e)
  pure config

def boardSpaces (existing : List String) : List SpaceGrouping → ImportM Unit
  | [] => pure ()
  | entry :: entries => do
      importRow env dryRun
        { kind := .grouping
          source := "board.json"
          key := s!"space {entry.space}"
          existing := existing.contains entry.space
          planned := fun p => decide (entry.space ∈ p.spaces)
          write := setGroupingSpace entry.space entry.mapping
          plan := fun p => { p with spaces := Insert.insert entry.space p.spaces } }
      boardSpaces existing entries

/-- The rows of a board config that passed its validation. -/
def boardRows (config : GroupingConfig) : ImportM Unit := do
  let existing := (← get).db.groupingConfig
  importRow env dryRun
    { kind := .grouping
      source := "board.json"
      key := "global"
      existing := existing.isSome
      planned := Planned.global
      write := setGroupingGlobal config.global
      plan := fun p => { p with global := true } }
  boardSpaces env dryRun ((existing.map fun c => c.spaces.map SpaceGrouping.space).getD [])
    config.spaces

def boardConfig : ImportM Unit := do
  match (readRecord env store "board.json").bind fun (text, _) => parseBoard env text with
  | .ok config => boardRows env dryRun config
  | .error s => skip .grouping "board.json" s

/-! ## Directories -/

/-- Sorted names with whether they are directories. -/
def entries (dir : String) : ImportM (List (String × Bool)) :=
  match store.readDir dir with
  | .ok names => pure (names.insertionSort fun a b => toLex a ≤ toLex b)
  | .error e => throw (.io e)

def isRecordName (name : String) : Bool := (stripSuffix ".json" name).isSome && !name.startsWith "."

def jsonFilesOf (dir : String) : List (String × Bool) → ImportM (List String)
  | [] => pure []
  | (name, isDir) :: rest => do
      let rel := s!"{dir}/{name}"
      if !isDir && isRecordName name then
        let files ← jsonFilesOf dir rest
        pure (rel :: files)
      else
        ignore rel "not a record file"
        jsonFilesOf dir rest

def jsonFiles (dir : String) : ImportM (List String) := do
  let names ← entries store dir
  jsonFilesOf dir names

/-! ## Space records -/

def spaceOfRecord (session ws : String) (record : Value) : Except Skip SpaceBinding := do
  if !textOk session || !textOk ws
    then .error (.new "its session or workspace name is not usable text")
  else do
    expectPath record s!"workspace:{ws}"
    let _ ← requireState record ["bound"] "space record"
    let projectId ← requiredText record "issue_identifier"
    let displayName ← optionalText record "display_name"
    let teamIds ← teamIds record
    let view ← viewOf record
    pure { herdrSession := session, space := ws, projectId, displayName, teamIds, view }

def spaceRow (rel : String) (binding : SpaceBinding) (dropped : List String) : ImportM Unit := do
  let run ← get
  importRow env dryRun
    { kind := .spaceBinding
      source := rel
      key := s!"{binding.herdrSession}/{binding.space}"
      dropped
      space := some binding.space
      existing := (run.db.spaceBinding binding.herdrSession binding.space).isSome
      planned := fun p => decide ((binding.herdrSession, binding.space) ∈ p.spaceBindings)
      write := setSpaceBinding binding
      plan := fun p => { p with
        spaceBindings := Insert.insert (binding.herdrSession, binding.space) p.spaceBindings } }

def spaceRecord (session ws rel : String) : ImportM Unit :=
  match (readRecord env store rel).bind fun (_, record) =>
      (spaceOfRecord session ws record).map fun binding => (binding, record) with
  | .ok (binding, record) => spaceRow env dryRun rel binding (droppedFields record)
  | .error s => skip .spaceBinding rel { s with key := some s!"{session}/{ws}" }

/-- The records of one session's directory, with their workspaces. -/
def keyedSpaces (session dir : String) :
    List (String × Bool) → ImportM (List (String × String × String))
  | [] => pure []
  | (file, isDir) :: rest => do
      let rel := s!"{dir}/{file}"
      match (stripSuffix ".json" file).filter fun _ => !isDir && !file.startsWith "." with
      | some ws =>
          let spaces ← keyedSpaces session dir rest
          pure ((session, ws, rel) :: spaces)
      | none =>
          ignore rel "not a record file"
          keyedSpaces session dir rest

/-- The session-keyed and the flat records of the directory. -/
def listSpaces : List (String × Bool) →
    ImportM (List (String × String × String) × List (String × String))
  | [] => pure ([], [])
  | (name, isDir) :: rest => do
      let rel := s!"workspaces/{name}"
      if isDir then
        let files ← entries store rel
        let here ← keyedSpaces name rel files
        let (keyed, flat) ← listSpaces rest
        pure (here ++ keyed, flat)
      else match (stripSuffix ".json" name).filter fun _ => !name.startsWith "." with
        | some ws =>
            let (keyed, flat) ← listSpaces rest
            pure (keyed, (ws, rel) :: flat)
        | none =>
            ignore rel "not a record file"
            listSpaces rest

def keyedRecords : List (String × String × String) → ImportM Unit
  | [] => pure ()
  | (session, ws, rel) :: rest => do
      spaceRecord env store dryRun session ws rel
      keyedRecords rest

def flatRecords (keyed : List String) : List (String × String) → ImportM Unit
  | [] => pure ()
  | (ws, rel) :: rest => do
      if keyed.contains ws then
        skip .spaceBinding rel
          (.keyed s!"{FLAT_SESSION}/{ws}"
            s!"superseded by a session-keyed record for workspace {ws}")
      else spaceRecord env store dryRun FLAT_SESSION ws rel
      flatRecords keyed rest

def workspaces : ImportM Unit := do
  let names ← entries store "workspaces"
  let (keyed, flat) ← listSpaces store names
  keyedRecords env store dryRun keyed
  flatRecords env store dryRun (keyed.map fun k => k.2.1) flat

/-! ## Worktree bindings -/

/-- Another worktree of the run or of the board that holds the issue. -/
def Import.issueHolder (run : Import) (issue path : String) : Option String :=
  match run.planned.worktrees.rows.find? fun w => w.issue == issue && w.path != path with
  | some w => some w.path
  | none => run.db.issueHolder issue path

def bindingRow (rel : String) (binding : WorktreeBinding) (dropped : List String) :
    ImportM Unit := do
  let run ← get
  importRow env dryRun
    { kind := .worktreeBinding
      source := rel
      key := binding.worktreePath
      dropped
      existing := (run.db.worktreeBinding binding.worktreePath).isSome
      planned := fun p => (p.worktrees.find? binding.worktreePath).isSome
      blocked := fun run => (run.issueHolder binding.issue binding.worktreePath).map fun holder =>
        s!"issue {binding.issue} is already bound to {holder}"
      write := setWorktreeBinding binding
      plan := fun p => { p with
        worktrees := p.worktrees.upsert { path := binding.worktreePath, issue := binding.issue } } }

/-- The worktree a record that is refused names. -/
def refusedPath (record : Value) : Option String :=
  ((record.get "worktree_path").bind Value.asStr).filter fun path => textOk path

def bindingRecord (rel : String) : ImportM Unit :=
  match readRecord env store rel with
  | .error s => skip .worktreeBinding rel s
  | .ok (_, record) =>
      match worktreeBinding record with
      | .error s => skip .worktreeBinding rel { s with key := refusedPath record <|> s.key }
      | .ok binding => bindingRow env dryRun rel binding (droppedFields record)

def bindingRecords : List String → ImportM Unit
  | [] => pure ()
  | rel :: rest => do
      bindingRecord env store dryRun rel
      bindingRecords rest

def bindings : ImportM Unit := do
  let files ← jsonFiles store "bindings"
  bindingRecords env store dryRun files

/-! ## Session scopes -/

/-- `trim_start_matches` of a text, on at most `fuel` matches. -/
def trimStartChars (p : List Char) : Nat → List Char → List Char
  | 0, chars => chars
  | fuel + 1, chars =>
      match stripPrefixChars p chars with
      | some rest => trimStartChars p fuel rest
      | none => chars

def trimStartMatches (p s : String) : String :=
  String.ofList (trimStartChars p.toList s.length s.toList)

def trimEndMatches (p s : String) : String :=
  String.ofList (trimStartChars p.toList.reverse s.length s.toList.reverse).reverse

/-- The session a record file is named after. -/
def sessionOfFile (rel : String) : Option String :=
  (((stripPrefix "session-" (trimStartMatches "contexts/" rel)).bind (stripSuffix ".json")).filter
    fun session =>
    textOk session)

def scopeOfRecord (session : String) (record : Value) : Except Skip SessionScope := do
  expectPath record s!"session:{session}"
  let _ ← requireState record ["bound"] "session record"
  let teamId ← requiredText record "issue_identifier"
  let teamKey ← optionalText record "display_name"
  pure { sessionId := session, teamId, teamKey }

def scopeRow (rel : String) (scope : SessionScope) (dropped : List String) : ImportM Unit := do
  let run ← get
  importRow env dryRun
    { kind := .sessionScope
      source := rel
      key := scope.sessionId
      dropped
      existing := (run.db.sessionScope scope.sessionId).isSome
      planned := fun p => decide (scope.sessionId ∈ p.sessions)
      write := setSessionScope scope
      plan := fun p => { p with sessions := Insert.insert scope.sessionId p.sessions } }

def contextRecord (rel : String) : ImportM Unit :=
  match sessionOfFile rel with
  | none => ignore rel "not a session record"
  | some session =>
      match (readRecord env store rel).bind fun (_, record) =>
          (scopeOfRecord session record).map fun scope => (scope, record) with
      | .ok (scope, record) => scopeRow env dryRun rel scope (droppedFields record)
      | .error s => skip .sessionScope rel { s with key := some session }

def contextRecords : List String → ImportM Unit
  | [] => pure ()
  | rel :: rest => do
      contextRecord env store dryRun rel
      contextRecords rest

def contexts : ImportM Unit := do
  let files ← jsonFiles store "contexts"
  contextRecords env store dryRun files

/-! ## Scope repositories -/

def scopeKeyOfFile (rel : String) : String :=
  trimEndMatches ".json" (trimStartMatches "scopes/" rel)

def reposOfRecord (scopeKey : String) (record : Value) : Except Skip (List String) :=
  if !isScopeKey scopeKey then
    .error (.new "its name is not a scope key (project-<id>.team-<id>, team-<id> or project-<id>)")
  else match ((record.get "repositories").bind Value.asArray).bind fun repos =>
    repos.mapM Value.asStr with
    | some repos => .ok repos
    | none => .error (.new "repositories is not a list of paths")

def repoRows (rel scopeKey : String) (existing : List String) : List String → ImportM Unit
  | [] => pure ()
  | repo :: repos => do
      if !repo.startsWith "/" || !textOk repo then
        skip .scopeRepo rel (.keyed s!"{scopeKey} {repo}" "is not an absolute path")
      else
        importRow env dryRun
          { kind := .scopeRepo
            source := rel
            key := s!"{scopeKey} {repo}"
            existing := existing.contains repo
            planned := fun p => decide ((scopeKey, repo) ∈ p.repos)
            write := addScopeRepo scopeKey repo
            plan := fun p => { p with repos := Insert.insert (scopeKey, repo) p.repos } }
      repoRows rel scopeKey existing repos

def reposRows (rel scopeKey : String) (repos : List String) : ImportM Unit := do
  let run ← get
  repoRows env dryRun rel scopeKey (run.db.scopeRepoPaths scopeKey) repos

def scopeRecord (rel : String) : ImportM Unit :=
  match (readRecord env store rel).bind fun (_, record) =>
    reposOfRecord (scopeKeyOfFile rel) record with
  | .ok repos => reposRows env dryRun rel (scopeKeyOfFile rel) repos
  | .error s => skip .scopeRepo rel { s with key := some (scopeKeyOfFile rel) }

def scopeRecords : List String → ImportM Unit
  | [] => pure ()
  | rel :: rest => do
      scopeRecord env store dryRun rel
      scopeRecords rest

def scopes : ImportM Unit := do
  let files ← jsonFiles store "scopes"
  scopeRecords env store dryRun files

/-! ## The run -/

def STORE_DIRS : List String := ["workspaces", "bindings", "contexts", "scopes"]

def retiredReason (name : String) (isDir : Bool) : String :=
  if name = "board" ∨ name = "sessions" then "herdr pane-sync state; the board does not move panes"
  else if name = "layouts" then "herdr layout journals; the board does not move panes"
  else if name = "descriptions" then "description backups from the retiring Linear write path"
  else if name = "shadow.log" then "the retiring Linear write path's log"
  else if name = "write-enabled" then "the retiring Linear write path's switch"
  else if name = "board.json" ∨ name ∈ STORE_DIRS then
    if isDir then "expected a file, found a directory" else "expected a directory, found a file"
  else "not part of the work store"

/-- The entries the import reads; the others are ignored. -/
def handledEntries : List (String × Bool) → ImportM (List String)
  | [] => pure []
  | (name, isDir) :: rest => do
      if (name = "board.json" ∧ isDir = false) ∨ (name ∈ STORE_DIRS ∧ isDir = true) then
        let handled ← handledEntries rest
        pure (name :: handled)
      else
        ignore name (retiredReason name isDir)
        handledEntries rest

def whenHandled (handled : List String) (name : String) (body : ImportM Unit) : ImportM Unit :=
  if handled.contains name then body else pure ()

def importEntries : ImportM Unit := do
  let names ← entries store ""
  let handled ← handledEntries names
  whenHandled handled "board.json" (boardConfig env store dryRun)
  whenHandled handled "workspaces" (workspaces env store dryRun)
  whenHandled handled "bindings" (bindings env store dryRun)
  whenHandled handled "contexts" (contexts env store dryRun)
  whenHandled handled "scopes" (scopes env store dryRun)

def Import.start (db : LinearDb) : Import where
  db := db
  imported := []
  skipped := []
  ignored := []
  changed := ∅
  planned := .empty

def Import.finish (run : Import) (present : Bool) : ImportOutcome where
  result :=
    { storeDir := store.path, present, dryRun, imported := run.imported,
      skipped := run.skipped, ignored := run.ignored }
  changedSpaces := if dryRun then ∅ else run.changed

/-- The outcome, and the database it leaves. -/
def importWorkStore (db : LinearDb) : Except ImportError ImportOutcome × LinearDb :=
  match store.metadata with
  | .notFound => (.ok ((Import.start db).finish store dryRun false), db)
  | .unreadable e => (.error (.badRequest s!"the work store {store.path} cannot be read: {e}"), db)
  | .file => (.error (.badRequest s!"the work store {store.path} is not a directory"), db)
  | .directory =>
      match importEntries env store dryRun (Import.start db) with
      | .ok _ run => (.ok (run.finish store dryRun true), run.db)
      | .error e run => (.error e, run.db)

end HerdrBoard.LocalState
