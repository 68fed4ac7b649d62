import HerdrBoard.LocalState.ImportRuns
import HerdrBoard.LocalState.Overrides

/-!
# What becomes of one row

A row is skipped, or it is inserted under a key that was free. What a database and a plan have is a
set of facts, and an inserted row adds its own facts to both. -/

open Lib HerdrBoard.Core

namespace HerdrBoard.LocalState

/-! ## Facts -/

/-- What the import asks a database or a plan for. -/
inductive Fact where
  | global
  | space (space : String)
  | spaceBinding (session space : String)
  | worktree (path : String)
  | held (path issue : String)
  | session (id : String)
  | repo (scopeKey path : String)
  deriving DecidableEq

def LinearDb.Has (db : LinearDb) : Fact → Prop
  | .global => ∃ r ∈ db.grouping, r.space = none
  | .space space => ∃ r ∈ db.grouping, r.space = some space
  | .spaceBinding session space =>
      ∃ b ∈ db.spaceBindings, b.herdrSession = session ∧ b.space = space
  | .worktree path => ∃ b ∈ db.worktreeBindings, b.worktreePath = path
  | .held path issue => ∃ b ∈ db.worktreeBindings, b.worktreePath = path ∧ b.issue = issue
  | .session id => ∃ s ∈ db.sessionScopes, s.sessionId = id
  | .repo scopeKey path => ∃ r ∈ db.scopeRepos, r.scopeKey = scopeKey ∧ r.repoPath = path

def Planned.Has (p : Planned) : Fact → Prop
  | .global => p.global = true
  | .space space => space ∈ p.spaces
  | .spaceBinding session space => (session, space) ∈ p.spaceBindings
  | .worktree path => ∃ w ∈ p.worktrees, w.path = path
  | .held path issue => ∃ w ∈ p.worktrees, w.path = path ∧ w.issue = issue
  | .session id => id ∈ p.sessions
  | .repo scopeKey path => (scopeKey, path) ∈ p.repos

theorem not_has_empty (f : Fact) : ¬Planned.empty.Has f := by
  cases f <;> simp [Planned.Has, Planned.empty]

/-- The second database has the rows of the first, and nothing new but rows of the
imported kinds. -/
structure LinearDb.Within (db t : LinearDb) : Prop where
  grouping : ∀ r ∈ db.grouping, r ∈ t.grouping
  spaceBindings : ∀ b ∈ db.spaceBindings, b ∈ t.spaceBindings
  worktreeBindings : ∀ b ∈ db.worktreeBindings, b ∈ t.worktreeBindings
  sessionScopes : ∀ s ∈ db.sessionScopes, s ∈ t.sessionScopes
  scopeRepos : ∀ r ∈ db.scopeRepos, r ∈ t.scopeRepos
  marks : t.marks = db.marks
  notes : t.notes = db.notes
  showRequests : t.showRequests = db.showRequests
  activity : t.activity = db.activity

variable {db t u : LinearDb} {f k : Fact}

theorem LinearDb.Within.refl (db : LinearDb) : db.Within db :=
  ⟨fun _ h => h, fun _ h => h, fun _ h => h, fun _ h => h, fun _ h => h, rfl, rfl, rfl, rfl⟩

theorem LinearDb.Within.trans (h : db.Within t) (h' : t.Within u) : db.Within u where
  grouping r hr := h'.grouping r (h.grouping r hr)
  spaceBindings b hb := h'.spaceBindings b (h.spaceBindings b hb)
  worktreeBindings b hb := h'.worktreeBindings b (h.worktreeBindings b hb)
  sessionScopes s hs := h'.sessionScopes s (h.sessionScopes s hs)
  scopeRepos r hr := h'.scopeRepos r (h.scopeRepos r hr)
  marks := h'.marks.trans h.marks
  notes := h'.notes.trans h.notes
  showRequests := h'.showRequests.trans h.showRequests
  activity := h'.activity.trans h.activity

theorem LinearDb.Within.has (h : db.Within t) (hf : db.Has f) : t.Has f := by
  cases f with
  | global =>
      obtain ⟨r, hr, hspace⟩ := hf
      exact ⟨r, h.grouping r hr, hspace⟩
  | space space =>
      obtain ⟨r, hr, hspace⟩ := hf
      exact ⟨r, h.grouping r hr, hspace⟩
  | spaceBinding session space =>
      obtain ⟨b, hb, hkey⟩ := hf
      exact ⟨b, h.spaceBindings b hb, hkey⟩
  | worktree path =>
      obtain ⟨b, hb, hkey⟩ := hf
      exact ⟨b, h.worktreeBindings b hb, hkey⟩
  | held path issue =>
      obtain ⟨b, hb, hkey⟩ := hf
      exact ⟨b, h.worktreeBindings b hb, hkey⟩
  | session id =>
      obtain ⟨s, hs, hkey⟩ := hf
      exact ⟨s, h.sessionScopes s hs, hkey⟩
  | repo scopeKey path =>
      obtain ⟨r, hr, hkey⟩ := hf
      exact ⟨r, h.scopeRepos r hr, hkey⟩

/-- Overrides stand beside a global row only. -/
def LinearDb.Rooted (db : LinearDb) : Prop := ∀ space, db.Has (.space space) → db.Has .global

/-! ## One row -/

section Rows

variable (env : ImportOutside) {dryRun : Bool} {row : NewRow} {run : Import}

/-- The item a skip of the row is listed as. -/
def NewRow.skipItem (row : NewRow) (reason : String) : LinearImportItem :=
  { kind := row.kind, key := row.key, source := row.source, reason := some reason, dropped := [] }

def Import.skipping (run : Import) (row : NewRow) (reason : String) : Import :=
  { run with skipped := run.skipped ++ [row.skipItem reason] }

/-- The item an import of the row is listed as. -/
def NewRow.item (row : NewRow) : LinearImportItem :=
  { kind := row.kind, key := row.key, source := row.source, reason := none, dropped := row.dropped }

def Import.planning (run : Import) (row : NewRow) : Import :=
  { run with imported := run.imported ++ [row.item], planned := row.plan run.planned }

def Import.writing (run : Import) (row : NewRow) (db : LinearDb) : Import :=
  { run.planning row with db, changed := Insert.insert row.space run.changed }

theorem importRow_present (h : (row.existing || row.planned run.planned) = true) :
    importRow env dryRun row run = .ok () (run.skipping row ALREADY) := by
  rw [importRow, get_bind_run, if_pos h]
  rfl

theorem importRow_blocked {reason : String} (h : (row.existing || row.planned run.planned) = false)
    (hblocked : row.blocked run = some reason) :
    importRow env dryRun row run = .ok () (run.skipping row reason) := by
  rw [importRow, get_bind_run, if_neg (by simp [h]), hblocked]
  rfl

theorem importRow_dry (h : (row.existing || row.planned run.planned) = false)
    (hblocked : row.blocked run = none) :
    importRow env true row run = .ok () (run.planning row) := by
  rw [importRow, get_bind_run, if_neg (by simp [h]), hblocked]
  rfl

theorem importRow_real (h : (row.existing || row.planned run.planned) = false)
    (hblocked : row.blocked run = none) (hwrite : row.write run.db = .ok () t) :
    importRow env false row run = .ok () (run.writing row t) := by
  rw [importRow, get_bind_run, if_neg (by simp [h]), hblocked]
  have hinsert : insert env false row.kind row.source row.key row.dropped row.space row.write
      run = .ok true
      { run with
        db := t, changed := Insert.insert row.space run.changed,
        imported := run.imported ++ [row.item] } := by
    rw [insert, get_bind_run, if_neg (by simp), hwrite]
    rfl
  exact bind_run hinsert

end Rows

/-- What the row of a record is: its key, the facts it adds, and when its write goes through. -/
structure RowSpec (row : NewRow) (k : Fact) (adds : Fact → Prop) (ready : LinearDb → Prop) :
    Prop where
  key : adds k
  planned : ∀ p, row.planned p = true ↔ p.Has k
  plan : ∀ p, ¬p.Has k → ∀ f, (row.plan p).Has f ↔ adds f ∨ p.Has f
  write : ∀ db, ready db → ¬db.Has k →
    ∃ t, row.write db = .ok () t ∧ db.Within t ∧ (∀ f, t.Has f ↔ adds f ∨ db.Has f)

/-! ## The rows of each kind -/

theorem mem_putGrouping_new {space : Option String} {position : Int} {mapping : GroupingMapping}
    {r : GroupingRow} {table : Table GroupingRow} (hnew : ∀ r ∈ table, r.space ≠ space) :
    r ∈ putGrouping space position mapping table ↔
      r ∈ table ∨ r = { id := table.nextKey, space, position, mapping } := by
  rw [mem_putGrouping]
  constructor
  · rintro (⟨r₀, hr₀, heq⟩ | ⟨-, heq⟩)
    · rw [if_neg (hnew r₀ hr₀)] at heq
      exact .inl (heq ▸ hr₀)
    · exact .inr heq
  · rintro (hr | heq)
    · exact .inl ⟨r, hr, if_neg (hnew r hr)⟩
    · exact .inr ⟨hnew, heq⟩

/-- The fact a grouping row of the space is. -/
def groupingFact : Option String → Fact
  | none => .global
  | some space => .space space

theorem has_groupingFact {space : Option String} :
    db.Has (groupingFact space) ↔ ∃ r ∈ db.grouping, r.space = space := by
  cases space <;> exact Iff.rfl

/-- A statement that adds one grouping row for a new space. -/
theorem added_grouping (space : Option String) {position : Int} {mapping : GroupingMapping}
    (h : GroupingUnique (putGrouping space position mapping db.grouping).rows)
    (hnew : ¬db.Has (groupingFact space)) :
    db.Within (db.withGrouping _ h) ∧ ∀ f, (db.withGrouping _ h).Has f ↔
      f = groupingFact space ∨ db.Has f := by
  have hfree : ∀ r ∈ db.grouping, r.space ≠ space :=
    fun r hr heq => hnew (has_groupingFact.mpr ⟨r, hr, heq⟩)
  have hmem (r : GroupingRow) : r ∈ (db.withGrouping _ h).grouping ↔ _ := mem_putGrouping_new hfree
  have hspaces (s : Option String) :
      (db.withGrouping _ h).Has (groupingFact s) ↔
        groupingFact s = groupingFact space ∨ db.Has (groupingFact s) := by
    have hinj : groupingFact s = groupingFact space ↔ s = space := by
      cases s <;> cases space <;> simp [groupingFact]
    rw [has_groupingFact, has_groupingFact, hinj]
    constructor
    · rintro ⟨r, hr, rfl⟩
      rcases (hmem r).mp hr with hr | rfl
      · exact .inr ⟨r, hr, rfl⟩
      · exact .inl rfl
    · rintro (rfl | ⟨r, hr, hs⟩)
      · exact ⟨_, (hmem _).mpr (.inr rfl), rfl⟩
      · exact ⟨r, (hmem r).mpr (.inl hr), hs⟩
  refine ⟨?_, ?_⟩
  · constructor <;> first | rfl | (intro x hx; first | exact hx | exact (hmem x).mpr (.inl hx))
  · intro f
    cases f with
    | global => exact hspaces none
    | space s => exact hspaces (some s)
    | spaceBinding session s =>
        cases space <;> simp [groupingFact, LinearDb.Has, LinearDb.withGrouping]
    | worktree path => cases space <;> simp [groupingFact, LinearDb.Has, LinearDb.withGrouping]
    | held path issue => cases space <;> simp [groupingFact, LinearDb.Has, LinearDb.withGrouping]
    | session id => cases space <;> simp [groupingFact, LinearDb.Has, LinearDb.withGrouping]
    | repo scopeKey path => cases space <;> simp [groupingFact, LinearDb.Has, LinearDb.withGrouping]

/-- The row of the global mapping of a board config. -/
def globalRow (config : GroupingConfig) (existing : Bool) : NewRow where
  kind := .grouping
  source := "board.json"
  key := "global"
  existing := existing
  planned := Planned.global
  write := setGroupingGlobal config.global
  plan p := { p with global := true }

def overrideRow (entry : SpaceGrouping) (existing : Bool) : NewRow where
  kind := .grouping
  source := "board.json"
  key := s!"space {entry.space}"
  existing := existing
  planned p := decide (entry.space ∈ p.spaces)
  write := setGroupingSpace entry.space entry.mapping
  plan p := { p with spaces := Insert.insert entry.space p.spaces }

theorem globalRow_spec {config : GroupingConfig} {existing : Bool} (h : config.global.Accepted) :
    RowSpec (globalRow config existing) .global (fun f => f = .global) fun _ => True where
  key := rfl
  planned _ := Iff.rfl
  plan p _ f := by cases f <;> simp [globalRow, Planned.Has]
  write db _ hnew := by
    have hunique : GroupingUnique (putGrouping none 0 config.global db.grouping).rows :=
      unique_putGrouping db.groupingUnique (by simp)
    obtain ⟨hwithin, hhas⟩ := added_grouping none hunique hnew
    refine ⟨_, ?_, hwithin, hhas⟩
    change (fromExcept _ >>= fun _ => _) db = _
    rw [fromExcept_bind_ok ((config.global.validateAs_accepts _).mpr h)]
    exact execGrouping_run hunique

theorem overrideRow_spec {entry : SpaceGrouping} {existing : Bool}
    (hspace : textOk entry.space = true) (h : entry.mapping.Accepted) :
    RowSpec (overrideRow entry existing) (.space entry.space)
      (fun f => f = .space entry.space) fun db => db.Has .global where
  key := rfl
  planned p := by simp [overrideRow, Planned.Has]
  plan p _ f := by cases f <;> simp [overrideRow, Planned.Has]
  write db hglobal hnew := by
    have hunique : GroupingUnique (putGrouping (some entry.space)
        (nextPosition db.grouping) entry.mapping db.grouping).rows := by
      apply unique_putGrouping db.groupingUnique
      intro _ r hr hspace
      exact (lt_nextPosition hr hspace).ne
    obtain ⟨hwithin, hhas⟩ := added_grouping (some entry.space) hunique hnew
    refine ⟨_, ?_, hwithin, hhas⟩
    have hsome : (db.groupingRow? none).isNone = false := by
      obtain ⟨r, hr, hnone⟩ := hglobal
      rw [groupingRow?_eq_some.mpr ⟨hr, hnone⟩]
      rfl
    change (fromExcept _ >>= fun _ => fromExcept _ >>= fun _ => transaction _) db = _
    rw [fromExcept_bind_ok (validateSpaceName_accepts.mpr hspace),
      fromExcept_bind_ok ((entry.mapping.validateAs_accepts _).mpr h)]
    apply transaction_ok.mpr
    apply bind_ok.mpr
    exact ⟨db, db, rfl, bind_ok.mpr
      ⟨(), db, refuse_run (by simp [hsome]) _, execGrouping_run hunique⟩⟩

/-- A new row of a ledger comes beside the rows there. -/
theorem mem_upsert_new {ρ κ : Type} [LinearOrder κ] [Named ρ κ] {t : Ledger ρ} {r x : ρ}
    (hnew : ∀ x ∈ t, Named.name x ≠ Named.name r) : x ∈ t.upsert r ↔ x = r ∨ x ∈ t := by
  rw [Ledger.mem_upsert]
  constructor
  · rintro (rfl | ⟨hx, -⟩)
    · exact .inl rfl
    · exact .inr hx
  · rintro (rfl | hx)
    · exact .inl rfl
    · exact .inr ⟨hx, hnew x hx⟩

def spaceBindingRow (rel : String) (binding : SpaceBinding) (dropped : List String)
    (existing : Bool) : NewRow where
  kind := .spaceBinding
  source := rel
  key := s!"{binding.herdrSession}/{binding.space}"
  dropped := dropped
  space := some binding.space
  existing := existing
  planned p := decide ((binding.herdrSession, binding.space) ∈ p.spaceBindings)
  write := setSpaceBinding binding
  plan p :=
    { p with spaceBindings := Insert.insert (binding.herdrSession, binding.space) p.spaceBindings }

theorem spaceBindingRow_spec {rel : String} {binding : SpaceBinding} {dropped : List String}
    {existing : Bool} (h : binding.check = .ok ()) :
    RowSpec (spaceBindingRow rel binding dropped existing)
      (.spaceBinding binding.herdrSession binding.space)
      (fun f => f = .spaceBinding binding.herdrSession binding.space) fun _ => True where
  key := rfl
  planned p := by simp [spaceBindingRow, Planned.Has]
  plan p _ f := by cases f <;> simp [spaceBindingRow, Planned.Has]
  write db _ hnew := by
    have hfree : ∀ x ∈ db.spaceBindings, Named.name x ≠ Named.name binding := by
      intro x hx heq
      have hpair : (x.herdrSession, x.space) = (binding.herdrSession, binding.space) := heq
      exact hnew ⟨x, hx, congrArg Prod.fst hpair, congrArg Prod.snd hpair⟩
    have hmem (x : SpaceBinding) : x ∈ db.spaceBindings.upsert binding ↔
        x = binding ∨ x ∈ db.spaceBindings :=
      mem_upsert_new hfree
    refine ⟨{ db with spaceBindings := db.spaceBindings.upsert binding }, ?_, ?_, ?_⟩
    · exact bind_run (fromExcept_ok.mpr ⟨h, rfl⟩)
    · constructor <;> first | rfl | (intro x hx; first | exact hx | exact (hmem x).mpr (.inr hx))
    · intro f
      cases f with
      | spaceBinding session space =>
          simp only [LinearDb.Has, hmem, Fact.spaceBinding.injEq]
          constructor
          · rintro ⟨x, rfl | hx, hkey⟩
            · exact .inl ⟨hkey.1.symm, hkey.2.symm⟩
            · exact .inr ⟨x, hx, hkey⟩
          · rintro (⟨rfl, rfl⟩ | ⟨x, hx, hkey⟩)
            · exact ⟨binding, .inl rfl, rfl, rfl⟩
            · exact ⟨x, .inr hx, hkey⟩
      | _ => simp [LinearDb.Has]

def worktreeRow (rel : String) (binding : WorktreeBinding) (dropped : List String)
    (existing : Bool) : NewRow where
  kind := .worktreeBinding
  source := rel
  key := binding.worktreePath
  dropped := dropped
  existing := existing
  planned p := (p.worktrees.find? binding.worktreePath).isSome
  blocked run := (run.issueHolder binding.issue binding.worktreePath).map fun holder =>
    s!"issue {binding.issue} is already bound to {holder}"
  write := setWorktreeBinding binding
  plan p := { p with
    worktrees := p.worktrees.upsert { path := binding.worktreePath, issue := binding.issue } }

theorem worktreeRow_spec {rel : String} {binding : WorktreeBinding} {dropped : List String}
    {existing : Bool} (h : binding.check = .ok ()) :
    RowSpec (worktreeRow rel binding dropped existing) (.worktree binding.worktreePath)
      (fun f => f = .worktree binding.worktreePath ∨ f = .held binding.worktreePath binding.issue)
        fun _ => True where
  key := .inl rfl
  planned p := by
    simp only [worktreeRow, Planned.Has, Option.isSome_iff_exists, Ledger.find?_eq_some]
    exact Iff.rfl
  plan p hfree f := by
    have hnew : ∀ x ∈ p.worktrees,
        Named.name x ≠ Named.name (PlannedWorktree.mk binding.worktreePath binding.issue) :=
      fun x hx heq => hfree ⟨x, hx, heq⟩
    have hmem (x : PlannedWorktree) :
        x ∈ ((worktreeRow rel binding dropped existing).plan p).worktrees ↔
          x = ⟨binding.worktreePath, binding.issue⟩ ∨ x ∈ p.worktrees := mem_upsert_new hnew
    cases f with
    | worktree path =>
        simp only [Planned.Has, hmem, Fact.worktree.injEq, reduceCtorEq, or_false]
        constructor
        · rintro ⟨x, rfl | hx, hkey⟩
          · exact .inl hkey.symm
          · exact .inr ⟨x, hx, hkey⟩
        · rintro (rfl | ⟨x, hx, hkey⟩)
          · exact ⟨_, .inl rfl, rfl⟩
          · exact ⟨x, .inr hx, hkey⟩
    | held path issue =>
        simp only [Planned.Has, hmem, Fact.held.injEq, reduceCtorEq, false_or]
        constructor
        · rintro ⟨x, rfl | hx, hkey⟩
          · exact .inl ⟨hkey.1.symm, hkey.2.symm⟩
          · exact .inr ⟨x, hx, hkey⟩
        · rintro (⟨rfl, rfl⟩ | ⟨x, hx, hkey⟩)
          · exact ⟨_, .inl rfl, rfl, rfl⟩
          · exact ⟨x, .inr hx, hkey⟩
    | _ => simp [Planned.Has, worktreeRow]
  write db _ hfree := by
    have hnew : ∀ x ∈ db.worktreeBindings, Named.name x ≠ Named.name binding :=
      fun x hx heq => hfree ⟨x, hx, heq⟩
    have hmem (x : WorktreeBinding) : x ∈ db.worktreeBindings.upsert binding ↔
        x = binding ∨ x ∈ db.worktreeBindings :=
      mem_upsert_new hnew
    refine ⟨{ db with worktreeBindings := db.worktreeBindings.upsert binding }, ?_, ?_, ?_⟩
    · exact bind_run (fromExcept_ok.mpr ⟨h, rfl⟩)
    · constructor <;> first | rfl | (intro x hx; first | exact hx | exact (hmem x).mpr (.inr hx))
    · intro f
      cases f with
      | worktree path =>
          simp only [LinearDb.Has, hmem, Fact.worktree.injEq, reduceCtorEq, or_false]
          constructor
          · rintro ⟨x, rfl | hx, hkey⟩
            · exact .inl hkey.symm
            · exact .inr ⟨x, hx, hkey⟩
          · rintro (rfl | ⟨x, hx, hkey⟩)
            · exact ⟨binding, .inl rfl, rfl⟩
            · exact ⟨x, .inr hx, hkey⟩
      | held path issue =>
          simp only [LinearDb.Has, hmem, Fact.held.injEq, reduceCtorEq, false_or]
          constructor
          · rintro ⟨x, rfl | hx, hkey⟩
            · exact .inl ⟨hkey.1.symm, hkey.2.symm⟩
            · exact .inr ⟨x, hx, hkey⟩
          · rintro (⟨rfl, rfl⟩ | ⟨x, hx, hkey⟩)
            · exact ⟨binding, .inl rfl, rfl, rfl⟩
            · exact ⟨x, .inr hx, hkey⟩
      | _ => simp [LinearDb.Has]

def sessionRow (rel : String) (scope : SessionScope) (dropped : List String) (existing : Bool) :
    NewRow where
  kind := .sessionScope
  source := rel
  key := scope.sessionId
  dropped := dropped
  existing := existing
  planned p := decide (scope.sessionId ∈ p.sessions)
  write := setSessionScope scope
  plan p := { p with sessions := Insert.insert scope.sessionId p.sessions }

theorem sessionRow_spec {rel : String} {scope : SessionScope} {dropped : List String}
    {existing : Bool} (h : scope.check = .ok ()) :
    RowSpec (sessionRow rel scope dropped existing) (.session scope.sessionId)
      (fun f => f = .session scope.sessionId) fun _ => True where
  key := rfl
  planned p := by simp [sessionRow, Planned.Has]
  plan p _ f := by cases f <;> simp [sessionRow, Planned.Has]
  write db _ hfree := by
    have hnew : ∀ x ∈ db.sessionScopes, Named.name x ≠ Named.name scope :=
      fun x hx heq => hfree ⟨x, hx, heq⟩
    have hmem (x : SessionScope) : x ∈ db.sessionScopes.upsert scope ↔
        x = scope ∨ x ∈ db.sessionScopes :=
      mem_upsert_new hnew
    refine ⟨{ db with sessionScopes := db.sessionScopes.upsert scope }, ?_, ?_, ?_⟩
    · exact bind_run (fromExcept_ok.mpr ⟨h, rfl⟩)
    · constructor <;> first | rfl | (intro x hx; first | exact hx | exact (hmem x).mpr (.inr hx))
    · intro f
      cases f with
      | session id =>
          simp only [LinearDb.Has, hmem, Fact.session.injEq]
          constructor
          · rintro ⟨x, rfl | hx, hkey⟩
            · exact .inl hkey.symm
            · exact .inr ⟨x, hx, hkey⟩
          · rintro (rfl | ⟨x, hx, hkey⟩)
            · exact ⟨scope, .inl rfl, rfl⟩
            · exact ⟨x, .inr hx, hkey⟩
      | _ => simp [LinearDb.Has]

def repoRow (rel scopeKey repo : String) (existing : Bool) : NewRow where
  kind := .scopeRepo
  source := rel
  key := s!"{scopeKey} {repo}"
  existing := existing
  planned p := decide ((scopeKey, repo) ∈ p.repos)
  write := addScopeRepo scopeKey repo
  plan p := { p with repos := Insert.insert (scopeKey, repo) p.repos }

theorem repoRow_spec {rel scopeKey repo : String} {existing : Bool}
    (hkey : isScopeKey scopeKey = true) (hrepo : repo.startsWith "/" = true ∧ textOk repo = true) :
    RowSpec (repoRow rel scopeKey repo existing) (.repo scopeKey repo)
      (fun f => f = .repo scopeKey repo) fun _ => True where
  key := rfl
  planned p := by simp [repoRow, Planned.Has]
  plan p _ f := by cases f <;> simp [repoRow, Planned.Has]
  write db _ hfree := by
    let added : ScopeRepo :=
      { scopeKey, repoPath := repo, position := db.nextRepoPosition scopeKey }
    have hnew : ∀ x ∈ db.scopeRepos, Named.name x ≠ Named.name added := by
      intro x hx heq
      have hpair : (x.scopeKey, x.repoPath) = (scopeKey, repo) := heq
      exact hfree ⟨x, hx, congrArg Prod.fst hpair, congrArg Prod.snd hpair⟩
    have hnone : db.scopeRepos.find? (toLex (scopeKey, repo)) = none :=
      Ledger.find?_eq_none.mpr hnew
    have hmem (x : ScopeRepo) : x ∈ db.scopeRepos.upsert added ↔
        x = added ∨ x ∈ db.scopeRepos := mem_upsert_new hnew
    refine ⟨{ db with scopeRepos := db.scopeRepos.upsert added }, ?_, ?_, ?_⟩
    · have hpath : requireAbsolutePath repo "repository path" = .ok () := by
        simp only [requireAbsolutePath, check_then, requireText_accepts]
        exact ⟨hrepo.2, by rw [if_pos hrepo.1]⟩
      change (refuse _ _ >>= fun _ => fromExcept _ >>= fun _ => modify _) db = _
      rw [bind_run (refuse_run (by simp [hkey]) _), fromExcept_bind_ok hpath]
      refine modify_ok.mpr ?_
      rw [if_neg (by simp [hnone])]
    · constructor <;> first | rfl | (intro x hx; first | exact hx | exact (hmem x).mpr (.inr hx))
    · intro f
      cases f with
      | repo key path =>
          simp only [LinearDb.Has, hmem, Fact.repo.injEq]
          constructor
          · rintro ⟨x, rfl | hx, hkey⟩
            · exact .inl ⟨hkey.1.symm, hkey.2.symm⟩
            · exact .inr ⟨x, hx, hkey⟩
          · rintro (⟨rfl, rfl⟩ | ⟨x, hx, hkey⟩)
            · exact ⟨added, .inl rfl, rfl, rfl⟩
            · exact ⟨x, .inr hx, hkey⟩
      | _ => simp [LinearDb.Has]

/-! ## A real run -/

/-- What a real run has made of the database it started from: its rows, and what the run planned. -/
structure Grown (db₀ : LinearDb) (r : Import) : Prop where
  within : db₀.Within r.db
  facts : ∀ f, r.db.Has f ↔ db₀.Has f ∨ r.planned.Has f
  rooted : r.db.Rooted

/-- A row that saw its key in the database, at the latest when its file was opened. -/
structure Sees (db₀ : LinearDb) (r : Import) (row : NewRow) (k : Fact) (adds : Fact → Prop) :
    Prop where
  existing : row.existing = true → r.db.Has k
  old : db₀.Has k → row.existing = true
  rooted : ∀ space, adds (.space space) → r.db.Has .global

/-- What a real run does with a row. -/
inductive RowOutcome (row : NewRow) (k : Fact) (r r' : Import) : Prop
  | present (hhas : r.db.Has k) (h : r' = r.skipping row ALREADY)
  | blocked (reason : String) (hnew : ¬r.db.Has k) (hblocked : row.blocked r = some reason)
      (h : r' = r.skipping row reason)
  | written (t : LinearDb) (hnew : ¬r.db.Has k) (hblocked : row.blocked r = none) (hhas : t.Has k)
      (hwithin : r.db.Within t) (h : r' = r.writing row t)

theorem RowOutcome.within {row : NewRow} {r r' : Import} (h : RowOutcome row k r r') :
    r.db.Within r'.db := by
  cases h with
  | present hhas h => exact h ▸ .refl _
  | blocked reason hnew hblocked h => exact h ▸ .refl _
  | written t hnew hblocked hhas hwithin h => exact h ▸ hwithin

/-- A row that nothing blocks is in the database afterwards. -/
theorem RowOutcome.has {row : NewRow} {r r' : Import} (h : RowOutcome row k r r')
    (hblocked : row.blocked r = none) : r'.db.Has k := by
  cases h with
  | present hhas h => exact h ▸ hhas
  | blocked reason hnew hsome h =>
      rw [hblocked] at hsome
      cases hsome
  | written t hnew hblocked hhas hwithin h => exact h ▸ hhas

theorem Grown.start {db₀ : LinearDb} (hrooted : db₀.Rooted) : Grown db₀ (.start db₀) where
  within := .refl db₀
  facts f := by simp [Import.start, not_has_empty]
  rooted := hrooted

theorem Grown.row (env : ImportOutside) {db₀ : LinearDb} {r : Import} {row : NewRow}
    {adds : Fact → Prop} {ready : LinearDb → Prop} (h : Grown db₀ r)
    (spec : RowSpec row k adds ready) (hsees : Sees db₀ r row k adds)
    (hready : ready r.db) : ∃ r', importRow env false row r = .ok () r' ∧ Grown db₀ r' ∧
      RowOutcome row k r r' := by
  by_cases hhas : r.db.Has k
  · have hpresent : (row.existing || row.planned r.planned) = true := by
      rw [Bool.or_eq_true, spec.planned]
      exact ((h.facts k).mp hhas).imp_left hsees.old
    exact ⟨_, importRow_present env hpresent, ⟨h.within, h.facts, h.rooted⟩, .present hhas rfl⟩
  · have hfree : ¬r.planned.Has k := fun hplanned => hhas ((h.facts k).mpr (.inr hplanned))
    have habsent : (row.existing || row.planned r.planned) = false := by
      rw [Bool.or_eq_false_iff, ← Bool.not_eq_true, ← Bool.not_eq_true, spec.planned]
      exact ⟨mt hsees.existing hhas, hfree⟩
    cases hblocked : row.blocked r with
    | some reason =>
        exact ⟨_, importRow_blocked env habsent hblocked, ⟨h.within, h.facts, h.rooted⟩,
          .blocked reason hhas hblocked rfl⟩
    | none =>
        obtain ⟨t, hwrite, hwithin, hadds⟩ := spec.write r.db hready hhas
        refine ⟨_, importRow_real env habsent hblocked hwrite, ⟨h.within.trans hwithin, ?_, ?_⟩,
          .written t hhas hblocked ((hadds k).mpr (.inl spec.key)) hwithin rfl⟩
        · intro f
          change t.Has f ↔ db₀.Has f ∨ (row.plan r.planned).Has f
          rw [hadds, spec.plan r.planned hfree, h.facts]
          tauto
        · intro space hspace
          change t.Has .global
          have hold : r.db.Has .global := by
            rcases (hadds _).mp hspace with hadd | hspace
            · exact hsees.rooted space hadd
            · exact h.rooted space hspace
          exact hwithin.has hold

end HerdrBoard.LocalState
