import HerdrBoard.LocalState.Activity
import HerdrBoard.LocalState.ImportTwice

/-!
# One worktree for an issue

The table has no index on the issue: every writer looks for a holder before it writes a binding.
-/

open Lib HerdrBoard.Core

namespace HerdrBoard.LocalState

variable (out : Outside) (env : ImportOutside) (store : WorkStore) {db t : LinearDb}

/-! ## Writing a binding -/

def OneWorktreePerIssue (db : LinearDb) : Prop :=
  ∀ b ∈ db.worktreeBindings, ∀ b' ∈ db.worktreeBindings, b.issue = b'.issue → b = b'

def LinearDb.bindings (db : LinearDb) : Ledger SpaceBinding × Ledger WorktreeBinding :=
  (db.spaceBindings, db.worktreeBindings)

theorem OneWorktreePerIssue.of_same (h : OneWorktreePerIssue db)
    (hsame : t.worktreeBindings = db.worktreeBindings) :
    OneWorktreePerIssue t := by
  unfold OneWorktreePerIssue
  rw [hsame]
  exact h

theorem OneWorktreePerIssue.fewer (h : OneWorktreePerIssue db)
    (hfewer : ∀ b ∈ t.worktreeBindings, b ∈ db.worktreeBindings) :
    OneWorktreePerIssue t :=
  fun b hb b' hb' => h b (hfewer b hb) b' (hfewer b' hb')

theorem issue_ne_of_free {b b' : WorktreeBinding}
    (hfree : db.issueHolder b.issue b.worktreePath = none)
    (hb' : b' ∈ db.worktreeBindings) (hpath : b'.worktreePath ≠ b.worktreePath) :
    b'.issue ≠ b.issue := by
  intro hissue
  have hheld : (db.issueHolder b.issue b.worktreePath).isSome = true :=
    issueHolder_isSome.mpr ⟨b'.worktreePath, ⟨b', hb', rfl, hissue⟩, hpath⟩
  simp [hfree] at hheld

/-- A step that keeps one worktree for an issue. -/
def Keeping (db t : LinearDb) : Prop := OneWorktreePerIssue db → OneWorktreePerIssue t

instance : Std.Refl Keeping := ⟨fun _ h => h⟩

instance : IsTrans LinearDb Keeping := ⟨fun _ _ _ h h' hdb => h' (h hdb)⟩

/-- A binding of an issue that no other worktree holds. -/
theorem OneWorktreePerIssue.upsert {b : WorktreeBinding} (h : OneWorktreePerIssue db)
    (hfree : db.issueHolder b.issue b.worktreePath = none)
    (ht : t.worktreeBindings = db.worktreeBindings.upsert b) :
    OneWorktreePerIssue t := by
  intro x hx y hy hissue
  rw [ht] at hx hy
  rcases Ledger.mem_upsert.mp hx with rfl | ⟨hxold, hxpath⟩
  · rcases Ledger.mem_upsert.mp hy with rfl | ⟨hyold, hypath⟩
    · rfl
    · exact absurd hissue.symm (issue_ne_of_free hfree hyold hypath)
  · rcases Ledger.mem_upsert.mp hy with rfl | ⟨hyold, hypath⟩
    · exact absurd hissue (issue_ne_of_free hfree hxold hxpath)
    · exact h x hxold y hyold hissue

theorem setWorktreeBinding_ok {b : WorktreeBinding} (h : setWorktreeBinding b db = .ok () t) :
    t = { db with worktreeBindings := db.worktreeBindings.upsert b } := by
  obtain ⟨_, _, hcheck, hmodify⟩ := bind_ok.mp h
  obtain ⟨-, rfl⟩ := fromExcept_ok.mp hcheck
  cases hmodify
  rfl

/-! ## Binds -/

theorem removeMarks_bindings (marks : List Mark) :
    Lib.Keeps LinearDb.bindings (removeMarks marks) := by
  induction marks with
  | nil => exact respects_pure _
  | cons mark marks ih => exact Respects.bind (fun _ => rfl) fun _ => ih

theorem clearSuggestionsNaming_bindings (issue worktree : String) :
    Lib.Keeps LinearDb.bindings (clearSuggestionsNaming issue worktree) :=
  readOnly_get.respects.bind fun _ => respects_ite
    (fun _ => (removeMarks_bindings _).bind fun _ => respects_pure _) fun _ => respects_pure _

/-- The worktree of a bind that went through, and what it wrote there. -/
structure Binds (p : LinearBindParams) (path : String) (db t : LinearDb) : Prop where
  resolved : out.resolveWorktree p.cwd = .ok path
  free : db.issueHolder p.issue path = none
  spaces : t.spaceBindings = db.spaceBindings
  written : t.worktreeBindings = db.worktreeBindings.upsert
    (boundWorktree p path (db.worktreeBinding path))

theorem linearBind_binds {p : LinearBindParams} {bound : LinearBound}
    (h : linearBind out p db = .ok bound t) : ∃ path, Binds out p path db t := by
  obtain ⟨path, mid, hpath, hfree, hset, hclear⟩ := linearBind_parts out h
  cases setWorktreeBinding_ok hset
  obtain ⟨hspaces, hworktrees⟩ :=
    Prod.mk.inj ((clearSuggestionsNaming_bindings p.issue path).ok hclear)
  exact ⟨path, hpath, hfree, hspaces, hworktrees⟩

theorem OneWorktreePerIssue.bind (h : OneWorktreePerIssue db) (p : LinearBindParams) :
    OneWorktreePerIssue (finalState (linearBind out p db)) := by
  cases hrun : linearBind out p db with
  | error e t => exact linearBind_atomic out p db e t hrun ▸ h
  | ok bound t =>
      obtain ⟨path, hbinds⟩ := linearBind_binds out hrun
      exact h.upsert hbinds.free hbinds.written

theorem OneWorktreePerIssue.unbind (h : OneWorktreePerIssue db) (p : LinearUnbindParams) :
    OneWorktreePerIssue (finalState (linearUnbind out p db)) := by
  have hremove (path : String) : Respects Keeping (removeWorktreeBinding path) :=
    fun db h => h.fewer fun b hb => (Ledger.mem_delete.mp hb).1
  have hunbind : Respects Keeping (linearUnbind out p) :=
    readOnly_get.respects.bind fun _ => (readOnly_fromExcept _).respects.bind fun path =>
      (readOnly_okOr _ _).respects.bind fun _ => (respects_ofStore (hremove path)).bind fun _ =>
        respects_pure _
  exact hunbind db h

/-! ## Recorded activity -/

theorem recordActivity_bindings (now : String) (a : NewActivity) :
    Lib.Keeps LinearDb.bindings (recordActivity now a) := by
  intro db
  rw [recordActivity_eq]
  cases a.check <;> rfl

/-- What links a session: a `save_issue` of the issue by a pane of a session whose space is bound,
in an unbound worktree, the issue free. -/
structure Proven (p : LinearActivityRecordParams) (db : LinearDb) (issue space path : String) :
    Prop where
  names : p.issue = some issue
  saves : isSaveIssue p.toolName = true
  claims : claimedSpace p.space (cleanClaims p.claims) = some space
  session : ∃ socket pane, (cleanClaims p.claims).herdrSocket = some socket ∧
    (cleanClaims p.claims).herdrPaneId = some pane ∧
    (db.spaceBinding (herdrSession (some socket)) space).isSome = true
  worktree : ∃ cwd, p.cwd = some cwd ∧ out.resolveWorktree cwd = .ok path
  unbound : db.worktreeBinding path = none
  free : db.issueHolder issue path = none

/-- What a recorded activity does to the bindings: nothing, or the bind of a proven
session's worktree. -/
inductive Links (p : LinearActivityRecordParams) (db t : LinearDb) : Prop
  | unchanged (h : t.bindings = db.bindings)
  | linked (issue space path written : String) (hproven : Proven out p db issue space path)
      (hbinds :
        Binds out { cwd := path, issue, space := some space, claims := cleanClaims p.claims } written
          db t)

theorem LinearDb.knownSession_iff {claims : ActivityClaims} {space : String} :
    db.knownSession claims space = true ↔
      ∃ socket pane, claims.herdrSocket = some socket ∧ claims.herdrPaneId = some pane ∧
      (db.spaceBinding (herdrSession (some socket)) space).isSome = true := by
  unfold LinearDb.knownSession claimedSession
  cases claims.herdrSocket <;> cases claims.herdrPaneId <;> simp

theorem toOption_eq_some {ε α : Type} {x : Except ε α} {a : α} :
    x.toOption = some a ↔ x = .ok a := by
  cases x <;> simp [Except.toOption]

theorem linkOrSuggest_links {p : LinearActivityRecordParams} {issue space : String}
    {activity : Activity} {result : LinearActivityRecordResult} (hissue : p.issue = some issue)
    (htool : isSaveIssue p.toolName = true)
    (hspace : claimedSpace p.space (cleanClaims p.claims) = some space)
    (h : linkOrSuggest out p issue space (cleanClaims p.claims) activity db = .ok result t) :
    Links out p db t := by
  obtain ⟨_, _, hget, hrest⟩ := bind_ok.mp h
  obtain ⟨rfl, rfl⟩ := get_ok.mp hget
  rcases ite_ok.mp hrest with ⟨-, hnamed⟩ | ⟨-, hrun⟩
  · obtain ⟨rfl, rfl⟩ := pure_ok.mp hnamed
    exact .unchanged rfl
  · generalize hpath : Option.filter _ _ = path at hrun
    cases path with
    | some path =>
        obtain ⟨bound, _, hbind, hpure⟩ := bind_ok.mp hrun
        obtain ⟨rfl, rfl⟩ := pure_ok.mp hpure
        obtain ⟨hworktree, hchecks⟩ := Option.filter_eq_some_iff.mp hpath
        simp only [Bool.and_eq_true, Option.isNone_iff_eq_none] at hchecks
        obtain ⟨cwd, hcwd, hresolved⟩ := Option.bind_eq_some_iff.mp hworktree
        obtain ⟨written, hbinds⟩ := linearBind_binds out hbind
        have hproven : Proven out p db issue space path :=
          { names := hissue, saves := htool, claims := hspace,
            session := LinearDb.knownSession_iff.mp hchecks.1.1,
            worktree := ⟨cwd, hcwd, toOption_eq_some.mp hresolved⟩, unbound :=
          hchecks.1.2, free := hchecks.2 }
        exact .linked issue space path written hproven hbinds
    | none =>
        obtain ⟨⟨before, after⟩, _, hmark, hpure⟩ := bind_ok.mp hrun
        obtain ⟨rfl, rfl⟩ := pure_ok.mp hpure
        obtain ⟨hdb, -, -⟩ := replaceMark_ok out hmark
        exact .unchanged (by rw [hdb]; rfl)

theorem followActivity_links {p : LinearActivityRecordParams} {activity : Activity}
    {result : LinearActivityRecordResult}
    (h : followActivity out p activity db = .ok result t) : Links out p db t := by
  cases hissue : p.issue with
  | none =>
      rw [followActivity, hissue] at h
      obtain ⟨rfl, rfl⟩ := pure_ok.mp h
      exact .unchanged rfl
  | some issue =>
      cases hspace : claimedSpace p.space (cleanClaims p.claims) with
      | none =>
          rw [followActivity, hissue, hspace] at h
          obtain ⟨rfl, rfl⟩ := pure_ok.mp h
          exact .unchanged rfl
      | some space =>
          rw [followActivity, hissue, hspace] at h
          rcases ite_ok.mp h with ⟨htool, hlink⟩ | ⟨-, hpure⟩
          · exact linkOrSuggest_links out hissue htool hspace hlink
          · obtain ⟨rfl, rfl⟩ := pure_ok.mp hpure
            exact .unchanged rfl

/-- The row of the activity itself is in no binding's way. -/
theorem Links.of_recorded {p : LinearActivityRecordParams} {now : String} {a : NewActivity}
    (h : Links out p (db.recorded now a) t) : Links out p db t := by
  cases h with
  | unchanged h => exact .unchanged h
  | linked issue space path written hproven hbinds =>
      exact .linked issue space path written
        ⟨hproven.names, hproven.saves, hproven.claims, hproven.session, hproven.worktree,
        hproven.unbound, hproven.free⟩ ⟨hbinds.resolved, hbinds.free, hbinds.spaces, hbinds.written⟩

theorem linearActivityRecord_links (p : LinearActivityRecordParams) (db : LinearDb) :
    Links out p db (finalState (linearActivityRecord out p db)) := by
  cases hrun : linearActivityRecord out p db with
  | error e t =>
      exact .unchanged (linearActivityRecord_atomicBy out recordActivity_bindings p db e t hrun)
  | ok result t =>
      rw [linearActivityRecord_eq] at hrun
      obtain ⟨_, _, hissue, hrest⟩ := bind_ok.mp hrun
      obtain rfl := ((readOnly_checkActivityIssue _).ok hissue).symm
      obtain ⟨activity, mid, hrecord, hfollow⟩ := bind_ok.mp hrest
      obtain ⟨-, rfl⟩ := recordActivity_ok (ofStore_ok.mp hrecord)
      exact (followActivity_links out hfollow).of_recorded out

theorem OneWorktreePerIssue.links {p : LinearActivityRecordParams} (h : OneWorktreePerIssue db)
    (hlinks : Links out p db t) :
    OneWorktreePerIssue t := by
  cases hlinks with
  | unchanged hsame => exact h.of_same (congrArg Prod.snd hsame)
  | linked issue space path written hproven hbinds => exact h.upsert hbinds.free hbinds.written

/-! ## Imports -/

/-- What a step of the import does to the database keeps one worktree for an issue. -/
def RunKeeping (run run' : Import) : Prop := Keeping run.db run'.db

instance : Std.Refl RunKeeping := ⟨fun _ h => h⟩

instance : IsTrans Import RunKeeping := ⟨fun _ _ _ h h' hrun => h' (h hrun)⟩

theorem skip_keeping (kind : LinearImportKind) (source : String) (s : Skip) :
    Respects RunKeeping (skip kind source s) :=
  fun _ h => h

theorem insert_db {dryRun : Bool} (row : NewRow) (run : Import) :
    (finalState (insert env dryRun row.kind row.source row.key row.dropped row.space
      row.write run)).db =
      if dryRun then run.db else finalState (row.write run.db) := by
  cases dryRun with
  | true => rfl
  | false =>
      rw [insert, get_bind_run, if_neg Bool.false_ne_true, if_neg Bool.false_ne_true]
      cases row.write run.db <;> rfl

theorem importRow_keeping {dryRun : Bool} {row : NewRow}
    (hwrite : ∀ run : Import, row.blocked run = none →
      Keeping run.db (finalState (row.write run.db))) :
    Respects RunKeeping (importRow env dryRun row) := by
  refine readOnly_get.bind_respects fun run run' hget => ?_
  obtain ⟨rfl, -⟩ := get_ok.mp hget
  by_cases hpresent : (row.existing || row.planned run.planned) = true
  · rw [if_pos hpresent]
    exact skip_keeping _ _ _ run
  · rw [if_neg hpresent]
    cases hblocked : row.blocked run with
    | some reason => exact skip_keeping _ _ _ run
    | none =>
        refine bind_at ?_ fun added _ _ => ?_
        · rw [RunKeeping, insert_db]
          cases dryRun with
          | true => exact fun h => h
          | false => exact hwrite run hblocked
        · cases added <;> exact fun h => h

theorem execGrouping_bindings (f : Table GroupingRow → Table GroupingRow) :
    Lib.Keeps LinearDb.bindings (execGrouping f) := by
  intro db
  unfold execGrouping
  split <;> rfl

theorem Keeping.of_bindings {x : LinearM Unit} (h : Lib.Keeps LinearDb.bindings x) (db : LinearDb) :
    Keeping db (finalState (x db)) :=
  fun hdb => hdb.of_same (congrArg Prod.snd (h db))

theorem setGroupingGlobal_bindings (m : GroupingMapping) :
    Lib.Keeps LinearDb.bindings (setGroupingGlobal m) :=
  (readOnly_fromExcept _).respects.bind fun _ => execGrouping_bindings _

theorem setGroupingSpace_bindings (space : String) (m : GroupingMapping) :
    Lib.Keeps LinearDb.bindings (setGroupingSpace space m) := by
  refine (readOnly_fromExcept _).respects.bind fun _ =>
    (readOnly_fromExcept _).respects.bind fun _ => .transaction ?_
  exact readOnly_get.respects.bind fun _ => (readOnly_refuse _ _).respects.bind fun _ =>
    execGrouping_bindings _

theorem boardSpaces_keeping {dryRun : Bool} (existing : List String)
    (entries : List SpaceGrouping) :
    Respects RunKeeping (boardSpaces env dryRun existing entries) := by
  induction entries with
  | nil => exact respects_pure _
  | cons entry entries ih =>
      refine Respects.bind (importRow_keeping env fun run _ => ?_) fun _ => ih
      exact .of_bindings (setGroupingSpace_bindings entry.space entry.mapping) run.db

theorem boardRows_keeping {dryRun : Bool} (config : GroupingConfig) :
    Respects RunKeeping (boardRows env dryRun config) := by
  refine readOnly_get.respects.bind fun before =>
    Respects.bind (importRow_keeping env fun run _ => ?_) fun _ => ?_
  · exact .of_bindings (setGroupingGlobal_bindings config.global) run.db
  · exact boardSpaces_keeping env _ _

theorem repoRows_keeping {dryRun : Bool} (rel scopeKey : String) (existing repos : List String) :
    Respects RunKeeping (repoRows env dryRun rel scopeKey existing repos) := by
  induction repos with
  | nil => exact respects_pure _
  | cons repo repos ih =>
      unfold repoRows
      dsimp only
      split
      · exact (skip_keeping _ _ _).bind fun _ => ih
      · refine Respects.bind (importRow_keeping env fun run _ => ?_) fun _ => ih
        have hadd : Respects Keeping (addScopeRepo scopeKey repo) := by
          refine (readOnly_refuse _ _).respects.bind fun _ =>
            (readOnly_fromExcept _).respects.bind fun _ => fun db hdb => ?_
          refine hdb.of_same ?_
          change (if _ then db else _ : LinearDb).worktreeBindings = db.worktreeBindings
          split <;> rfl
        exact hadd run.db

theorem spaceRow_keeping {dryRun : Bool} (rel : String) (binding : SpaceBinding)
    (dropped : List String) : Respects RunKeeping (spaceRow env dryRun rel binding dropped) := by
  refine readOnly_get.respects.bind fun before => importRow_keeping env fun run _ => ?_
  have hset : Respects Keeping (setSpaceBinding binding) :=
    (readOnly_fromExcept _).respects.bind fun _ => fun _ hdb => hdb
  exact hset run.db

theorem scopeRow_keeping {dryRun : Bool} (rel : String) (scope : SessionScope)
    (dropped : List String) : Respects RunKeeping (scopeRow env dryRun rel scope dropped) := by
  refine readOnly_get.respects.bind fun before => importRow_keeping env fun run _ => ?_
  have hset : Respects Keeping (setSessionScope scope) :=
    (readOnly_fromExcept _).respects.bind fun _ => fun _ hdb => hdb
  exact hset run.db

theorem setWorktreeBinding_keeping {b : WorktreeBinding}
    (hfree : db.issueHolder b.issue b.worktreePath = none) :
    Keeping db (finalState (setWorktreeBinding b db)) := by
  have hatomic : Atomic (setWorktreeBinding b) :=
    (readOnly_fromExcept _).bind_atomic fun _ => (total_modify _).atomic
  refine hatomic.at fun _ t hset hdb => ?_
  exact hdb.upsert hfree (congrArg LinearDb.worktreeBindings (setWorktreeBinding_ok hset))

/-- A binding row is written for an issue that neither the run nor the board has elsewhere. -/
theorem bindingRow_keeping {dryRun : Bool} (rel : String) (binding : WorktreeBinding)
    (dropped : List String) : Respects RunKeeping (bindingRow env dryRun rel binding dropped) := by
  refine readOnly_get.respects.bind fun before => importRow_keeping env fun run hblocked => ?_
  have hfree : run.db.issueHolder binding.issue binding.worktreePath = none := by
    have hholder : run.issueHolder binding.issue binding.worktreePath = none :=
      Option.map_eq_none_iff.mp hblocked
    unfold Import.issueHolder at hholder
    split at hholder
    · cases hholder
    · exact hholder
  exact setWorktreeBinding_keeping hfree

theorem paired_keeping {α : Type} {x : ImportM α} (h : Respects RunKeeping x) :
    Paired (fun r r' => r' = r ∧ OneWorktreePerIssue r.db) x x := by
  intro run run' ⟨hsame, hrun⟩
  subst hsame
  have hkept := h _ hrun
  cases hx : x run' with
  | ok a t =>
      rw [hx] at hkept
      exact .ok a ⟨rfl, hkept⟩
  | error e t =>
      rw [hx] at hkept
      exact .error e ⟨rfl, hkept⟩

theorem keptByRows_keeping (dryRun : Bool) :
    KeptByRows env dryRun dryRun fun r r' => r' = r ∧ OneWorktreePerIssue r.db where
  ignore _ _ := paired_keeping fun _ h => h
  skip kind source s := paired_keeping (skip_keeping kind source s)
  board config _ := paired_keeping (boardRows_keeping env config)
  space rel binding dropped _ := paired_keeping (spaceRow_keeping env rel binding dropped)
  worktree rel binding dropped _ := paired_keeping (bindingRow_keeping env rel binding dropped)
  scope rel scope dropped _ := paired_keeping (scopeRow_keeping env rel scope dropped)
  repos rel scopeKey repos _ :=
    paired_keeping (readOnly_get.respects.bind fun _ => repoRows_keeping env rel scopeKey _ repos)

theorem OneWorktreePerIssue.imported (h : OneWorktreePerIssue db) (dryRun : Bool) :
    OneWorktreePerIssue (importWorkStore env store dryRun db).2 := by
  unfold importWorkStore
  cases store.metadata with
  | notFound => exact h
  | unreadable e => exact h
  | file => exact h
  | directory =>
      have hsteps : Paired (fun r r' => r' = r ∧ OneWorktreePerIssue r.db)
          (importEntries env store dryRun)
          (importEntries env store dryRun) := (keptByRows_keeping env dryRun).importEntries
      rcases hsteps.outcomes (s := .start db) ⟨rfl, h⟩ with
          ⟨a, r, _, hrun, -, -, hone⟩ | ⟨e, r, _, hrun, -, -, hone⟩
      · rw [hrun]
        exact hone
      · rw [hrun]
        exact hone

/-! ## Every database -/

/-- A database whose bindings the program wrote. What is written elsewhere is any change of the
other tables. -/
inductive BoundBy : LinearDb → Prop
  | fresh : BoundBy .fresh
  | bind (out : Outside) (p : LinearBindParams) {db : LinearDb} (h : BoundBy db) :
      BoundBy (finalState (linearBind out p db))
  | unbind (out : Outside) (p : LinearUnbindParams) {db : LinearDb} (h : BoundBy db) :
      BoundBy (finalState (linearUnbind out p db))
  | activity (out : Outside) (p : LinearActivityRecordParams) {db : LinearDb} (h : BoundBy db) :
      BoundBy (finalState (linearActivityRecord out p db))
  | imported (env : ImportOutside) (store : WorkStore) (dryRun : Bool) {db : LinearDb}
      (h : BoundBy db) : BoundBy (importWorkStore env store dryRun db).2
  | elsewhere {db t : LinearDb} (h : BoundBy db)
      (hsame : t.worktreeBindings = db.worktreeBindings) : BoundBy t

theorem BoundBy.oneWorktree (h : BoundBy db) : OneWorktreePerIssue db := by
  induction h with
  | fresh => exact fun b hb => absurd hb List.not_mem_nil
  | bind out p h ih => exact ih.bind out p
  | unbind out p h ih => exact ih.unbind out p
  | activity out p h ih => exact ih.links out (linearActivityRecord_links out p _)
  | imported env store dryRun h ih => exact ih.imported env store dryRun
  | elsewhere h hsame ih => exact ih.of_same hsame

/-- The worktree of a worktree's root is that worktree. -/
def Outside.SelfResolving (out : Outside) : Prop :=
  ∀ cwd path, out.resolveWorktree cwd = .ok path → out.resolveWorktree path = .ok path

theorem proven_sessions_link :
    (∀ db, BoundBy db → OneWorktreePerIssue db) ∧
    (∀ out p db, Links out p db (finalState (linearActivityRecord out p db))) ∧
    (∀ (out : Outside) p (db : LinearDb), out.SelfResolving →
      (finalState (linearActivityRecord out p db)).bindings = db.bindings ∨
      ∃ issue space path, Proven out p db issue space path ∧
        Binds out { cwd := path, issue, space := some space, claims := cleanClaims p.claims } path
          db (finalState (linearActivityRecord out p db))) ∧
    ∀ out p db e db', linearBind out p db = .error e db' → db' = db := by
  refine ⟨fun db h => h.oneWorktree, linearActivityRecord_links,
    fun out p db hself => ?_, linearBind_atomic⟩
  cases linearActivityRecord_links out p db with
  | unchanged h => exact .inl h
  | linked issue space path written hproven hbinds =>
      obtain ⟨cwd, -, hresolved⟩ := hproven.worktree
      have hsame : written = path := by
        have hwritten := hbinds.resolved.symm.trans (hself cwd path hresolved)
        cases hwritten
        rfl
      exact .inr ⟨issue, space, path, hproven, hsame ▸ hbinds⟩

/-! ## Resolvers -/

/-- Every directory under a worktree resolves to its root. -/
def straight : Outside := { Outside.silent with resolveWorktree := fun _ => .ok "/w" }

/-- A resolver that finds another worktree at a root it returned. -/
def crooked : Outside :=
  { Outside.silent with resolveWorktree := fun cwd => if cwd = "/a" then .ok "/b" else .ok "/c" }

/-- Space `web` is bound. -/
def boundSpace : LinearDb := finalState (linearSpaceBind { space := "web", project := "p1" } .fresh)

def saveWeb2 (cwd : String) : LinearActivityRecordParams where
  toolName := "save_issue"
  issue := some "WEB-2"
  space := some "web"
  cwd := some cwd
  claims := { herdrSocket := some "/default.sock", herdrPaneId := some "p1" }

theorem proven_sessions_link_straight :
    (finalState (linearActivityRecord straight (saveWeb2 "/w/src")
      boundSpace)).worktreeBindings.rows.map WorktreeBinding.issue =
      ["WEB-2"] ∧
    ∃ issue space path, Proven straight (saveWeb2 "/w/src") boundSpace issue space path := by
  have hself : straight.SelfResolving := by
    intro cwd path h
    cases h
    rfl
  refine ⟨by decide +kernel, ?_⟩
  rcases proven_sessions_link.2.2.1 straight (saveWeb2 "/w/src") boundSpace hself with
      hsame | ⟨issue, space, path, hproven, -⟩
  · have hrows := congrArg (fun bindings => bindings.2.rows.map WorktreeBinding.issue) hsame
    exact absurd hrows (by decide +kernel)
  · exact ⟨issue, space, path, hproven⟩

def boundElsewhere : LinearDb :=
  finalState (linearBind crooked { cwd := "/c", issue := "WEB-1" } boundSpace)

/-- The root a directory resolves to is unbound, and the one that root resolves to is bound to
another issue. -/
theorem bound_worktree_relinked :
    ¬∀ (out : Outside) (p : LinearActivityRecordParams) (db : LinearDb), BoundBy db → ∀ path,
      (finalState (linearActivityRecord out p db)).worktreeBinding path ≠ db.worktreeBinding path →
        db.worktreeBinding path = none := by
  intro h
  have hbound : BoundBy boundElsewhere := .bind crooked _ (.elsewhere .fresh rfl)
  have hnone := h crooked (saveWeb2 "/a") boundElsewhere hbound "/c"
    (ne_of_apply_ne (Option.map WorktreeBinding.issue) (by decide +kernel))
  exact absurd (congrArg (Option.map WorktreeBinding.issue) hnone) (by decide +kernel)

end HerdrBoard.LocalState
