import HerdrBoard.LocalState.ImportPreview

/-!
# A second run of the import

A run over what a run before left finds every row of the store in the board, or blocked as
it was before. -/

open Lib HerdrBoard.Core

namespace HerdrBoard.LocalState

variable (env : ImportOutside) {db db₀ db₁ : LinearDb} {r q : Import}

/-! ## A first run and a second in step -/

/-- The item a second run lists for an imported one. -/
def LinearImportItem.again (item : LinearImportItem) : LinearImportItem :=
  { item with reason := some ALREADY, dropped := [] }

/-- The second run has imported nothing, and skipped what the first one imported. -/
structure AtRest (db₁ : LinearDb) (r q : Import) : Prop where
  db : q.db = db₁
  planned : q.planned = .empty
  imported : q.imported = []
  again : ∀ item ∈ r.imported, item.again ∈ q.skipped

/-- While the first run is on its way to `db₁`, a second one that starts there rests. -/
structure Repeated (db₀ db₁ : LinearDb) (r q : Import) : Prop extends Grown db₀ r where
  after : r.db.Within db₁ → AtRest db₁ r q

theorem importRow_total (dryRun : Bool) (row : NewRow) (run : Import) :
    ∃ run', importRow env dryRun row run = .ok () run' := by
  by_cases hpresent : (row.existing || row.planned run.planned) = true
  · exact ⟨_, importRow_present env hpresent⟩
  · have habsent := Bool.not_eq_true _ ▸ hpresent
    cases hblocked : row.blocked run with
    | some reason => exact ⟨_, importRow_blocked env habsent hblocked⟩
    | none =>
        cases dryRun with
        | true => exact ⟨_, importRow_dry env habsent hblocked⟩
        | false =>
            cases hwrite : row.write run.db with
            | ok a t => exact ⟨_, importRow_real env habsent hblocked hwrite⟩
            | error e t =>
                rw [importRow, get_bind_run, if_neg hpresent, hblocked]
                have hinsert : insert env false row.kind row.source row.key row.dropped row.space
                    row.write run =
                    .ok false { run with
                      db := t, skipped := run.skipped ++ [row.skipItem (reasonOf env e)] } := by
                  rw [insert, get_bind_run, if_neg (by simp), hwrite]
                  rfl
                exact ⟨_, bind_run hinsert⟩

theorem AtRest.skipping (h : AtRest db₁ r q) (row : NewRow) (reason : String) (r' : Import)
    (hagain : ∀ item ∈ r'.imported, item ∈ r.imported ∨ item.again = row.skipItem reason) :
    AtRest db₁ r' (q.skipping row reason) where
  db := h.db
  planned := h.planned
  imported := h.imported
  again := by
    intro item hitem
    simp only [Import.skipping, List.mem_append, List.mem_singleton]
    rcases hagain item hitem with hold | hnew
    · exact .inl (h.again item hold)
    · exact .inr hnew

theorem Repeated.row {row row' : NewRow} {k : Fact} {adds : Fact → Prop} {ready : LinearDb → Prop}
    (h : Repeated db₀ db₁ r q) (spec : RowSpec row k adds ready) (hsees : Sees db₀ r row k adds)
    (hready : ready r.db) (hsame : row' = { row with existing := row'.existing })
    (hfound : r.db.Within db₁ → db₁.Has k → row'.existing = true)
    (hblocked : r.db.Within db₁ → AtRest db₁ r q → (row.blocked r).isSome = true →
      (row.blocked q).isSome = true) :
    ∃ r' q', importRow env false row r = .ok () r' ∧ importRow env false row' q = .ok () q' ∧
      Repeated db₀ db₁ r' q' ∧ RowOutcome row k r r' := by
  obtain ⟨r', hfirst, hgrown, houtcome⟩ := h.toGrown.row env spec hsees hready
  obtain ⟨q', hsecond⟩ := importRow_total env false row' q
  refine ⟨r', q', hfirst, hsecond, ⟨hgrown, fun hwithin => ?_⟩, houtcome⟩
  have hbefore := houtcome.within.trans hwithin
  have hrest := h.after hbefore
  -- the second run finds the key, so it skips the row
  have hskips (hhas : db₁.Has k) : q' = q.skipping row ALREADY := by
    have hpresent : (row'.existing || row'.planned q.planned) = true := by
      rw [hfound hbefore hhas]; rfl
    have := hsecond.symm.trans (importRow_present env hpresent)
    cases this
    rw [hsame]
    rfl
  cases houtcome with
  | present hhas hr' =>
      rw [hskips (hbefore.has hhas), hr']
      exact hrest.skipping row _ _ fun item hitem => .inl hitem
  | written t hnew hnone hhas hin hr' =>
      subst hr'
      rw [hskips (hwithin.has hhas)]
      apply hrest.skipping row
      intro item hitem
      rcases List.mem_append.mp hitem with hitem | hitem
      · exact .inl hitem
      · rw [List.mem_singleton.mp hitem]
        exact .inr rfl
  | blocked reason hnew hsome hr' =>
      by_cases hpresent : (row'.existing || row'.planned q.planned) = true
      · cases hsecond.symm.trans (importRow_present env hpresent)
        rw [hr']
        exact hrest.skipping row' _ _ fun item hitem => .inl hitem
      · have hstill := hblocked hbefore hrest (by rw [hsome]; rfl)
        obtain ⟨reason', hreason⟩ := Option.isSome_iff_exists.mp hstill
        have hblocked' : row'.blocked q = some reason' := by rw [hsame]; exact hreason
        cases hsecond.symm.trans (importRow_blocked env (Bool.not_eq_true _ ▸ hpresent) hblocked')
        rw [hr']
        exact hrest.skipping row' _ _ fun item hitem => .inl hitem

/-- A change of the listings that leaves the databases and what was imported. -/
theorem Repeated.listing {r' q' : Import} (h : Repeated db₀ db₁ r q) (hr : r'.db = r.db)
    (hplanned : r'.planned = r.planned)
    (himported : r'.imported = r.imported) (hq : q'.db = q.db) (hqplanned : q'.planned = q.planned)
    (hqimported : q'.imported = q.imported) (hskipped : ∀ item ∈ q.skipped, item ∈ q'.skipped) :
    Repeated db₀ db₁ r' q' where
  within := hr ▸ h.within
  facts := by rw [hr, hplanned]; exact h.facts
  rooted := hr ▸ h.rooted
  after hwithin := by
    have hrest := h.after (hr ▸ hwithin)
    exact ⟨hq.trans hrest.db, hqplanned.trans hrest.planned, hqimported.trans hrest.imported,
      fun item hitem => hskipped _ (hrest.again item (himported ▸ hitem))⟩

/-- A holder that blocked the first run is still there. -/
theorem Repeated.issueHolder (h : Repeated db₀ db₁ r q) (hwithin : r.db.Within db₁)
    {issue path : String} (hheld : (r.issueHolder issue path).isSome = true) :
    (q.issueHolder issue path).isSome = true := by
  have hrest := h.after hwithin
  obtain ⟨other, hother, hne⟩ : ∃ other, r.db.Has (.held other issue) ∧ other ≠ path := by
    unfold Import.issueHolder at hheld
    cases hplanned : r.planned.worktrees.rows.find? fun w => w.issue == issue && w.path != path with
    | some w =>
        have hpred := List.find?_some hplanned
        simp only [Bool.and_eq_true, beq_iff_eq, bne_iff_ne] at hpred
        exact ⟨w.path, (h.facts _).mpr (.inr ⟨w, List.mem_of_find?_eq_some hplanned, rfl, hpred.1⟩),
          hpred.2⟩
    | none =>
        rw [hplanned] at hheld
        exact issueHolder_isSome.mp hheld
  unfold Import.issueHolder
  cases q.planned.worktrees.rows.find? fun w => w.issue == issue && w.path != path with
  | some w => rfl
  | none =>
      rw [hrest.db]
      exact issueHolder_isSome.mpr ⟨other, hwithin.has hother, hne⟩

theorem repeated_boardSpaces (before before' : List String) {entries : List SpaceGrouping}
    (start : LinearDb)
    (hold : db₀.Within start) (hbefore : ∀ space, before.contains space = true ↔
      start.Has (.space space))
    (hbefore' : start.Within db₁ → ∀ space, db₁.Has (.space space) → before'.contains space = true)
    (hentries : ∀ e ∈ entries, textOk e.space = true ∧ e.mapping.Accepted) :
    Paired (fun r q => Repeated db₀ db₁ r q ∧ start.Within r.db ∧ r.db.Has .global)
      (boardSpaces env false before entries) (boardSpaces env false before' entries) := by
  induction entries with
  | nil => exact paired_pure _
  | cons entry entries ih =>
      refine Paired.bind ?_ fun _ => ih fun e he => hentries e (List.mem_cons_of_mem _ he)
      apply paired_of_ok
      rintro r q ⟨h, hstart, hglobal⟩
      obtain ⟨hspace, hmapping⟩ := hentries entry List.mem_cons_self
      have hsees : Sees db₀ r (overrideRow entry (before.contains entry.space)) (.space entry.space)
          (fun f => f = .space entry.space) :=
        .of_before hold hstart (hbefore entry.space) fun _ _ => hglobal
      have hfound (hwithin : r.db.Within db₁) (hhas : db₁.Has (.space entry.space)) :
          (overrideRow entry (before'.contains entry.space)).existing = true :=
        hbefore' (hstart.trans hwithin) entry.space hhas
      obtain ⟨r', q', hr, hq, h', houtcome⟩ :=
        h.row env (overrideRow_spec hspace hmapping) hsees hglobal rfl hfound
        (fun _ _ hblocked => by cases hblocked)
      exact ⟨r', q', hr, hq, h', hstart.trans houtcome.within, houtcome.within.has hglobal⟩

theorem repeated_board (hrooted : db₁.Rooted) {config : GroupingConfig}
    (hconfig : config.Accepted) :
    Paired (Repeated db₀ db₁) (boardRows env false config) (boardRows env false config) := by
  intro r q h
  have hsees : Sees db₀ r (globalRow config r.db.groupingConfig.isSome) .global
      (fun f => f = .global) :=
    .of_asked h.toGrown groupingConfig_isSome (by simp)
  have hfound (hwithin : r.db.Within db₁) (hhas : db₁.Has .global) :
      (globalRow config q.db.groupingConfig.isSome).existing = true := by
    rw [(h.after hwithin).db]
    exact groupingConfig_isSome.mpr hhas
  obtain ⟨r', q', hr, hq, h', houtcome⟩ :=
    h.row env (globalRow_spec hconfig.global) hsees trivial rfl hfound
    (fun _ _ hblocked => by cases hblocked)
  have hrest := repeated_boardSpaces env r.db.mappedSpaces q.db.mappedSpaces r.db h.within
    (fun space => mappedSpaces_contains h.rooted)
    (fun hwithin space
      hhas => by rw [(h.after hwithin).db]; exact (mappedSpaces_contains hrooted).mpr hhas)
        hconfig.spaces
    r' q' ⟨h', houtcome.within, houtcome.has rfl⟩
  have hfirst : boardRows env false config r = boardSpaces env false r.db.mappedSpaces config.spaces
      r' := bind_run hr
  have hsecond : boardRows env false config q = boardSpaces env false q.db.mappedSpaces
      config.spaces q' := bind_run hq
  rw [hfirst, hsecond]
  exact hrest.mono fun _ _ h => h.1

theorem repeated_repoRows (rel : String) {scopeKey : String} {before before' : List String}
    (repos : List String)
    {start : LinearDb} (hkey : isScopeKey scopeKey = true) (hold : db₀.Within start)
    (hbefore : ∀ repo, before.contains repo = true ↔ start.Has (.repo scopeKey repo))
    (hbefore' : start.Within db₁ → ∀ repo, db₁.Has (.repo scopeKey repo) →
      before'.contains repo = true) :
    Paired (fun r q => Repeated db₀ db₁ r q ∧ start.Within r.db)
      (repoRows env false rel scopeKey before repos)
      (repoRows env false rel scopeKey before' repos) := by
  induction repos with
  | nil => exact paired_pure _
  | cons repo repos ih =>
      unfold repoRows
      dsimp only
      split
      · refine Paired.bind ?_ fun _ => ih
        apply paired_of_ok
        rintro r q ⟨h, hstart⟩
        exact ⟨_, _, rfl, rfl, h.listing rfl rfl rfl rfl rfl rfl fun item hitem =>
          List.mem_append_left _ hitem, hstart⟩
      · rename_i hrepo
        simp only [Bool.or_eq_true, Bool.not_eq_true', not_or, Bool.not_eq_false] at hrepo
        refine Paired.bind ?_ fun _ => ih
        apply paired_of_ok
        rintro r q ⟨h, hstart⟩
        have hsees : Sees db₀ r (repoRow rel scopeKey repo (before.contains repo))
            (.repo scopeKey repo)
            (fun f => f = .repo scopeKey repo) := .of_before hold hstart (hbefore repo) (by simp)
        have hfound (hwithin : r.db.Within db₁) (hhas : db₁.Has (.repo scopeKey repo)) :
            (repoRow rel scopeKey repo (before'.contains repo)).existing = true :=
          hbefore' (hstart.trans hwithin) repo hhas
        obtain ⟨r', q', hr, hq, h', houtcome⟩ :=
          h.row env (repoRow_spec hkey hrepo) hsees trivial rfl hfound
          (fun _ _ hblocked => by cases hblocked)
        exact ⟨r', q', hr, hq, h', hstart.trans houtcome.within⟩

theorem repeated_repos {rel scopeKey : String} {repos : List String}
    (hkey : isScopeKey scopeKey = true) :
    Paired (Repeated db₀ db₁) (reposRows env false rel scopeKey repos)
      (reposRows env false rel scopeKey repos) := by
  intro r q h
  have hrest := repeated_repoRows env rel repos hkey h.within (fun repo => scopeRepoPaths_contains)
    (fun hwithin repo
      hhas => by rw [← (h.after hwithin).db] at hhas; exact scopeRepoPaths_contains.mpr hhas) r
        q ⟨h, .refl _⟩
  exact hrest.mono fun _ _ h => h.1

/-- Every kind of record keeps the second run at rest. -/
theorem keptByRows_repeated (hrooted : db₁.Rooted) :
    KeptByRows env false false (Repeated db₀ db₁) where
  ignore path reason := by
    apply paired_of_ok
    intro r q h
    exact ⟨_, _, rfl, rfl, h.listing rfl rfl rfl rfl rfl rfl fun item hitem => hitem⟩
  skip kind source s := by
    apply paired_of_ok
    intro r q h
    exact ⟨_, _, rfl, rfl, h.listing rfl rfl rfl rfl rfl rfl fun item hitem =>
      List.mem_append_left _ hitem⟩
  board config hconfig := repeated_board env hrooted hconfig
  space rel binding dropped hcheck := by
    apply paired_of_ok
    intro r q h
    have hsees : Sees db₀ r
        (spaceBindingRow rel binding dropped
          (r.db.spaceBinding binding.herdrSession binding.space).isSome)
        (.spaceBinding binding.herdrSession binding.space)
        (fun f => f = .spaceBinding binding.herdrSession binding.space) :=
      .of_asked h.toGrown spaceBinding_isSome (by simp)
    have hfound (hwithin : r.db.Within db₁)
        (hhas : db₁.Has (.spaceBinding binding.herdrSession binding.space)) :
        (spaceBindingRow rel binding dropped
          (q.db.spaceBinding binding.herdrSession binding.space).isSome).existing = true := by
      rw [← (h.after hwithin).db] at hhas
      exact spaceBinding_isSome.mpr hhas
    obtain ⟨r', q', hr, hq, h', -⟩ :=
      h.row env (spaceBindingRow_spec hcheck) hsees trivial rfl hfound
      (fun _ _ hblocked => by cases hblocked)
    exact ⟨r', q', hr, hq, h'⟩
  worktree rel binding dropped hcheck := by
    apply paired_of_ok
    intro r q h
    have hsees : Sees db₀ r
        (worktreeRow rel binding dropped (r.db.worktreeBinding binding.worktreePath).isSome)
        (.worktree binding.worktreePath)
        (fun f => f = .worktree binding.worktreePath ∨
          f = .held binding.worktreePath binding.issue) :=
      .of_asked h.toGrown worktreeBinding_isSome (by simp)
    have hfound (hwithin : r.db.Within db₁) (hhas : db₁.Has (.worktree binding.worktreePath)) :
        (worktreeRow rel binding dropped
          (q.db.worktreeBinding binding.worktreePath).isSome).existing = true := by
      rw [← (h.after hwithin).db] at hhas
      exact worktreeBinding_isSome.mpr hhas
    obtain ⟨r', q', hr, hq, h', -⟩ :=
      h.row env (worktreeRow_spec hcheck) hsees trivial rfl hfound (by
      intro hwithin _ hblocked
      simp only [worktreeRow, Option.isSome_map] at hblocked ⊢
      exact h.issueHolder hwithin hblocked)
    exact ⟨r', q', hr, hq, h'⟩
  scope rel scope dropped hcheck := by
    apply paired_of_ok
    intro r q h
    have hsees : Sees db₀ r
        (sessionRow rel scope dropped (r.db.sessionScope scope.sessionId).isSome)
        (.session scope.sessionId) (fun f => f = .session scope.sessionId) :=
      .of_asked h.toGrown sessionScope_isSome (by simp)
    have hfound (hwithin : r.db.Within db₁) (hhas : db₁.Has (.session scope.sessionId)) :
        (sessionRow rel scope dropped (q.db.sessionScope scope.sessionId).isSome).existing =
          true := by
      rw [← (h.after hwithin).db] at hhas
      exact sessionScope_isSome.mpr hhas
    obtain ⟨r', q', hr, hq, h', -⟩ := h.row env (sessionRow_spec hcheck) hsees trivial rfl hfound
      (fun _ _ hblocked => by cases hblocked)
    exact ⟨r', q', hr, hq, h'⟩
  repos rel scopeKey repos hkey := repeated_repos env hkey

end HerdrBoard.LocalState
