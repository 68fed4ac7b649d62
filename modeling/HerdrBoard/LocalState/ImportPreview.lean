import HerdrBoard.LocalState.ImportRows

/-!
# A dry run against the real one

A dry run keeps the database and plans what a real run writes: what the real run's database has is
what the first database has and what is planned. -/

open Lib HerdrBoard.Core

namespace HerdrBoard.LocalState

variable (env : ImportOutside) {db db₀ : LinearDb} {d r : Import}

/-! ## What the rows read -/

theorem spaceBinding_isSome {session space : String} :
    (db.spaceBinding session space).isSome = true ↔ db.Has (.spaceBinding session space) := by
  simp only [LinearDb.spaceBinding, Option.isSome_iff_exists, Ledger.find?_eq_some]
  constructor
  · rintro ⟨b, hb, hname⟩
    have hpair : (b.herdrSession, b.space) = (session, space) := hname
    exact ⟨b, hb, congrArg Prod.fst hpair, congrArg Prod.snd hpair⟩
  · rintro ⟨b, hb, rfl, rfl⟩
    exact ⟨b, hb, rfl⟩

theorem worktreeBinding_isSome {path : String} :
    (db.worktreeBinding path).isSome = true ↔ db.Has (.worktree path) := by
  simp only [LinearDb.worktreeBinding, Option.isSome_iff_exists, Ledger.find?_eq_some]
  exact Iff.rfl

theorem sessionScope_isSome {id : String} :
    (db.sessionScope id).isSome = true ↔ db.Has (.session id) := by
  simp only [LinearDb.sessionScope, Option.isSome_iff_exists, Ledger.find?_eq_some]
  exact Iff.rfl

theorem scopeRepoPaths_contains {scopeKey path : String} :
    (db.scopeRepoPaths scopeKey).contains path = true ↔ db.Has (.repo scopeKey path) := by
  simp only [LinearDb.scopeRepoPaths, List.contains_iff_mem, List.mem_map, List.mem_insertionSort,
    LinearDb.reposOf, List.mem_filter, decide_eq_true_eq, LinearDb.Has]
  constructor
  · rintro ⟨x, ⟨hx, hkey⟩, hpath⟩
    exact ⟨x, hx, hkey, hpath⟩
  · rintro ⟨x, hx, hkey, hpath⟩
    exact ⟨x, ⟨hx, hkey⟩, hpath⟩

theorem groupingConfig_isSome : db.groupingConfig.isSome = true ↔ db.Has .global := by
  simp only [LinearDb.groupingConfig, Option.isSome_map, Option.isSome_iff_exists,
    groupingRow?_eq_some]
  exact Iff.rfl

/-- The spaces a board config has, as the import reads them. -/
def LinearDb.mappedSpaces (db : LinearDb) : List String :=
  (db.groupingConfig.map fun c => c.spaces.map SpaceGrouping.space).getD []

theorem mappedSpaces_contains (hrooted : db.Rooted) {space : String} :
    db.mappedSpaces.contains space = true ↔ db.Has (.space space) := by
  rw [List.contains_iff_mem]
  constructor
  · intro h
    unfold LinearDb.mappedSpaces LinearDb.groupingConfig at h
    cases hglobal : db.groupingRow? none with
    | none => simp [hglobal] at h
    | some global =>
        simp only [hglobal, Option.map_some, Option.getD_some, List.map_map, List.mem_map] at h
        obtain ⟨row, hrow, rfl⟩ := h
        obtain ⟨hmem, hspace⟩ := mem_overrides.mp hrow
        obtain ⟨name, hname⟩ := Option.isSome_iff_exists.mp hspace
        exact ⟨row, hmem, by simp [GroupingRow.entry, hname]⟩
  · intro h
    obtain ⟨global, hglobal, hnone⟩ := hrooted space h
    obtain ⟨row, hmem, hname⟩ := h
    unfold LinearDb.mappedSpaces LinearDb.groupingConfig
    simp only [groupingRow?_eq_some.mpr ⟨hglobal, hnone⟩, Option.map_some, Option.getD_some,
      List.map_map, List.mem_map]
    exact ⟨row, mem_overrides.mpr ⟨hmem, by simp [hname]⟩, by simp [GroupingRow.entry, hname]⟩

/-- The holder a bind names is the first by path. -/
theorem issueHolder_eq_some {issue path holder : String} :
    db.issueHolder issue path = some holder ↔ db.Has (.held holder issue) ∧ holder ≠ path ∧
      ∀ other, db.Has (.held other issue) → other ≠ path → holder ≤ other := by
  simp only [LinearDb.issueHolder, Option.map_eq_some_iff, Ledger.find?_first, Bool.and_eq_true,
    beq_iff_eq, bne_iff_ne]
  constructor
  · rintro ⟨b, ⟨hb, ⟨hissue, hne⟩, hleast⟩, rfl⟩
    refine ⟨⟨b, hb, rfl, hissue⟩, hne, ?_⟩
    rintro other ⟨x, hx, rfl, hxissue⟩ hxne
    exact hleast x hx ⟨hxissue, hxne⟩
  · rintro ⟨⟨b, hb, rfl, hissue⟩, hne, hleast⟩
    exact ⟨b, ⟨hb, ⟨hissue, hne⟩, fun x hx hxp => hleast _ ⟨x, hx, rfl, hxp.1⟩ hxp.2⟩, rfl⟩

theorem issueHolder_isSome {issue path : String} :
    (db.issueHolder issue path).isSome = true ↔
      ∃ other, db.Has (.held other issue) ∧ other ≠ path := by
  simp only [LinearDb.issueHolder, Option.isSome_map, List.find?_isSome, Bool.and_eq_true,
    beq_iff_eq, bne_iff_ne]
  constructor
  · rintro ⟨b, hb, hissue, hne⟩
    exact ⟨_, ⟨b, hb, rfl, hissue⟩, hne⟩
  · rintro ⟨_, ⟨b, hb, rfl, hissue⟩, hne⟩
    exact ⟨b, hb, hissue, hne⟩

/-! ## A dry run and a real run in step -/

structure InStep (db₀ : LinearDb) (d r : Import) : Prop extends Grown db₀ r where
  db : d.db = db₀
  imported : d.imported = r.imported
  skipped : d.skipped = r.skipped
  ignored : d.ignored = r.ignored
  planned : d.planned = r.planned

theorem InStep.start (hrooted : db₀.Rooted) : InStep db₀ (.start db₀) (.start db₀) :=
  ⟨.start hrooted, rfl, rfl, rfl, rfl, rfl⟩

theorem InStep.row {row row' : NewRow} {k : Fact} {adds : Fact → Prop} {ready : LinearDb → Prop}
    (h : InStep db₀ d r) (spec : RowSpec row k adds ready) (hsees : Sees db₀ r row k adds)
    (hready : ready r.db) (hsame : row' = { row with existing := row'.existing })
    (hdry : row'.existing = true ↔ db₀.Has k) (hblocked : row.blocked d = row.blocked r) :
    ∃ d' r', importRow env true row' d = .ok () d' ∧ importRow env false row r = .ok () r' ∧
      InStep db₀ d' r' ∧ RowOutcome row k r r' := by
  obtain ⟨r', hreal, hgrown, houtcome⟩ := h.toGrown.row env spec hsees hready
  have hpresent : (row'.existing || row'.planned d.planned) = true ↔ r.db.Has k := by
    have hplanned : row'.planned = row.planned := by rw [hsame]
    rw [hplanned, h.planned, Bool.or_eq_true, hdry, spec.planned, h.facts]
  have hblocked' : row'.blocked d = row.blocked r := by
    rw [hsame]
    exact hblocked
  cases houtcome with
  | present hhas hr' =>
      refine ⟨_, r', importRow_present env (hpresent.mpr hhas), hreal, ?_, .present hhas hr'⟩
      rw [hsame]
      exact ⟨hgrown, h.db, by rw [hr']; exact h.imported, by simp [hr', Import.skipping,
        NewRow.skipItem, h.skipped], by rw [hr']; exact h.ignored, by rw [hr']; exact h.planned⟩
  | blocked reason hnew hsome hr' =>
      have habsent := Bool.not_eq_true _ ▸ mt hpresent.mp hnew
      refine ⟨_, r', importRow_blocked env habsent (hblocked'.trans hsome), hreal, ?_,
        .blocked reason hnew hsome hr'⟩
      rw [hsame]
      exact ⟨hgrown, h.db, by rw [hr']; exact h.imported, by simp [hr', Import.skipping,
        NewRow.skipItem, h.skipped], by rw [hr']; exact h.ignored, by rw [hr']; exact h.planned⟩
  | written t hnew hnone hhas hwithin hr' =>
      have habsent := Bool.not_eq_true _ ▸ mt hpresent.mp hnew
      refine ⟨_, r', importRow_dry env habsent (hblocked'.trans hnone), hreal, ?_,
        .written t hnew hnone hhas hwithin hr'⟩
      have hitem : row'.item = row.item := by rw [hsame]; rfl
      have hplan : row'.plan = row.plan := by rw [hsame]
      subst hr'
      exact ⟨hgrown, h.db, by simp [Import.planning, Import.writing, h.imported, hitem],
        h.skipped, h.ignored, by simp [Import.planning, Import.writing, h.planned, hplan]⟩

/-- A row that asks the database for its key sees what it has. -/
theorem Sees.of_asked {row : NewRow} {k : Fact} {adds : Fact → Prop} (h : Grown db₀ r)
    (hasked : row.existing = true ↔ r.db.Has k)
    (hrooted : ∀ space, adds (.space space) → r.db.Has .global) :
    Sees db₀ r row k adds where
  existing := hasked.mp
  old hold := hasked.mpr (h.within.has hold)
  rooted := hrooted

/-- A row that asked a database the run had before sees what that one had. -/
theorem Sees.of_before {row : NewRow} {k : Fact} {adds : Fact → Prop} {start : LinearDb}
    (hold : db₀.Within start)
    (hstart : start.Within r.db) (hasked : row.existing = true ↔ start.Has k)
    (hrooted : ∀ space, adds (.space space) → r.db.Has .global) : Sees db₀ r row k adds where
  existing hin := hstart.has (hasked.mp hin)
  old hhas := hasked.mpr (hold.has hhas)
  rooted := hrooted

theorem InStep.issueHolder (h : InStep db₀ d r) (issue path : String) :
    d.issueHolder issue path = r.issueHolder issue path := by
  unfold Import.issueHolder
  rw [h.planned]
  cases hplanned : r.planned.worktrees.rows.find? fun w => w.issue == issue && w.path != path with
  | some w => rfl
  | none =>
      have hnone : ∀ other, r.planned.Has (.held other issue) → other = path := by
        rintro other ⟨w, hw, rfl, rfl⟩
        by_contra hne
        have := List.find?_eq_none.mp hplanned w hw
        simp [hne] at this
      have hheld (other : String) (hne : other ≠ path) : d.db.Has (.held other issue) ↔
          r.db.Has (.held other issue) := by
        rw [h.facts, h.db]
        constructor
        · exact .inl
        · rintro (hold | hplan)
          · exact hold
          · exact absurd (hnone other hplan) hne
      ext holder
      rw [issueHolder_eq_some, issueHolder_eq_some]
      constructor
      · rintro ⟨hhas, hne, hleast⟩
        exact ⟨(hheld holder hne).mp hhas, hne,
          fun other ho hon => hleast other ((hheld other hon).mpr ho) hon⟩
      · rintro ⟨hhas, hne, hleast⟩
        exact ⟨(hheld holder hne).mpr hhas, hne,
          fun other ho hon => hleast other ((hheld other hon).mp ho) hon⟩

/-- The override rows of a board config, the spaces mapped before having been read. -/
theorem inStep_boardSpaces (before before' : List String) {entries : List SpaceGrouping}
    (start : LinearDb)
    (hold : db₀.Within start) (hbefore : ∀ space, before'.contains space = true ↔
      db₀.Has (.space space))
    (hbefore' : ∀ space, before.contains space = true ↔ start.Has (.space space))
    (hentries : ∀ e ∈ entries, textOk e.space = true ∧ e.mapping.Accepted) :
    Paired (fun d r => InStep db₀ d r ∧ start.Within r.db ∧ r.db.Has .global)
      (boardSpaces env true before' entries) (boardSpaces env false before entries) := by
  induction entries with
  | nil => exact paired_pure _
  | cons entry entries ih =>
      refine Paired.bind ?_ fun _ => ih fun e he => hentries e (List.mem_cons_of_mem _ he)
      apply paired_of_ok
      rintro d r ⟨h, hstart, hglobal⟩
      obtain ⟨hspace, hmapping⟩ := hentries entry List.mem_cons_self
      have hsees : Sees db₀ r (overrideRow entry (before.contains entry.space)) (.space entry.space)
          (fun f => f = .space entry.space) :=
        .of_before hold hstart (hbefore' entry.space) fun _ _ => hglobal
      have hdry : (overrideRow entry (before'.contains entry.space)).existing = true ↔
          db₀.Has (.space entry.space) :=
        hbefore entry.space
      obtain ⟨d', r', hd, hr, h', houtcome⟩ :=
        h.row env (overrideRow_spec hspace hmapping) hsees hglobal rfl hdry rfl
      exact ⟨d', r', hd, hr, h', hstart.trans houtcome.within, houtcome.within.has hglobal⟩

theorem inStep_board (hrooted : db₀.Rooted) {config : GroupingConfig} (hconfig : config.Accepted) :
    Paired (InStep db₀) (boardRows env true config) (boardRows env false config) := by
  intro d r h
  have hsees : Sees db₀ r (globalRow config r.db.groupingConfig.isSome) .global
      (fun f => f = .global) :=
    .of_asked h.toGrown groupingConfig_isSome (by simp)
  have hdry : (globalRow config d.db.groupingConfig.isSome).existing = true ↔ db₀.Has .global := by
    rw [← h.db]
    exact groupingConfig_isSome
  obtain ⟨d', r', hd, hr, h', houtcome⟩ :=
    h.row env (globalRow_spec hconfig.global) hsees trivial rfl hdry rfl
  have hrest := inStep_boardSpaces env r.db.mappedSpaces d.db.mappedSpaces r.db h.within
    (fun space => by rw [h.db]; exact mappedSpaces_contains hrooted)
      (fun space => mappedSpaces_contains h.rooted) hconfig.spaces
    d' r' ⟨h', houtcome.within, houtcome.has rfl⟩
  have hdry : boardRows env true config d = boardSpaces env true d.db.mappedSpaces config.spaces
      d' := bind_run hd
  have hreal : boardRows env false config r = boardSpaces env false r.db.mappedSpaces config.spaces
      r' := bind_run hr
  rw [hdry, hreal]
  exact hrest.mono fun _ _ h => h.1

theorem inStep_repoRows (rel : String) {scopeKey : String} {before before' : List String}
    (repos : List String) {start : LinearDb}
    (hkey : isScopeKey scopeKey = true) (hold : db₀.Within start)
    (hbefore : ∀ repo, before'.contains repo = true ↔ db₀.Has (.repo scopeKey repo))
    (hbefore' : ∀ repo, before.contains repo = true ↔ start.Has (.repo scopeKey repo)) :
    Paired (fun d r => InStep db₀ d r ∧ start.Within r.db)
      (repoRows env true rel scopeKey before' repos)
      (repoRows env false rel scopeKey before repos) := by
  induction repos with
  | nil => exact paired_pure _
  | cons repo repos ih =>
      unfold repoRows
      dsimp only
      split
      · refine Paired.bind ?_ fun _ => ih
        apply paired_of_ok
        rintro d r ⟨h, hstart⟩
        exact ⟨_, _, rfl, rfl,
          ⟨⟨h.within, h.facts, h.rooted⟩, h.db, h.imported, by simp [h.skipped], h.ignored,
            h.planned⟩, hstart⟩
      · rename_i hrepo
        simp only [Bool.or_eq_true, Bool.not_eq_true', not_or, Bool.not_eq_false] at hrepo
        refine Paired.bind ?_ fun _ => ih
        apply paired_of_ok
        rintro d r ⟨h, hstart⟩
        have hsees : Sees db₀ r (repoRow rel scopeKey repo (before.contains repo))
            (.repo scopeKey repo)
            (fun f => f = .repo scopeKey repo) := .of_before hold hstart (hbefore' repo) (by simp)
        have hdry : (repoRow rel scopeKey repo (before'.contains repo)).existing = true ↔
            db₀.Has (.repo scopeKey repo) :=
          hbefore repo
        obtain ⟨d', r', hd, hr, h', houtcome⟩ :=
          h.row env (repoRow_spec hkey hrepo) hsees trivial rfl hdry rfl
        exact ⟨d', r', hd, hr, h', hstart.trans houtcome.within⟩

theorem inStep_repos {rel scopeKey : String} {repos : List String}
    (hkey : isScopeKey scopeKey = true) :
    Paired (InStep db₀) (reposRows env true rel scopeKey repos)
      (reposRows env false rel scopeKey repos) := by
  intro d r h
  have hrest := inStep_repoRows env rel repos hkey h.within
    (fun repo => by rw [← h.db]; exact scopeRepoPaths_contains)
      (fun repo => scopeRepoPaths_contains) d r ⟨h, .refl _⟩
  exact hrest.mono fun _ _ h => h.1

/-- Every kind of record keeps the dry run and the real one in step. -/
theorem keptByRows_inStep (hrooted : db₀.Rooted) : KeptByRows env true false (InStep db₀) where
  ignore path reason := by
    apply paired_of_ok
    intro d r h
    exact ⟨_, _, rfl, rfl, ⟨⟨h.within, h.facts, h.rooted⟩, h.db, h.imported,
      h.skipped, by simp [h.ignored], h.planned⟩⟩
  skip kind source s := by
    apply paired_of_ok
    intro d r h
    exact ⟨_, _, rfl, rfl, ⟨⟨h.within, h.facts, h.rooted⟩, h.db, h.imported, by simp [h.skipped],
      h.ignored, h.planned⟩⟩
  board config hconfig := inStep_board env hrooted hconfig
  space rel binding dropped hcheck := by
    apply paired_of_ok
    intro d r h
    have hsees : Sees db₀ r
        (spaceBindingRow rel binding dropped
          (r.db.spaceBinding binding.herdrSession binding.space).isSome)
        (.spaceBinding binding.herdrSession binding.space)
        (fun f => f = .spaceBinding binding.herdrSession binding.space) :=
      .of_asked h.toGrown spaceBinding_isSome (by simp)
    have hdry : (spaceBindingRow rel binding dropped
        (d.db.spaceBinding binding.herdrSession binding.space).isSome).existing =
        true ↔ db₀.Has (.spaceBinding binding.herdrSession binding.space) := by
      rw [← h.db]
      exact spaceBinding_isSome
    obtain ⟨d', r', hd, hr, h', -⟩ :=
      h.row env (spaceBindingRow_spec hcheck) hsees trivial rfl hdry rfl
    exact ⟨d', r', hd, hr, h'⟩
  worktree rel binding dropped hcheck := by
    apply paired_of_ok
    intro d r h
    have hblocked : (worktreeRow rel binding dropped
        (r.db.worktreeBinding binding.worktreePath).isSome).blocked d =
        (worktreeRow rel binding dropped (r.db.worktreeBinding binding.worktreePath).isSome).blocked
          r := by
      simp only [worktreeRow, h.issueHolder]
    have hsees : Sees db₀ r
        (worktreeRow rel binding dropped (r.db.worktreeBinding binding.worktreePath).isSome)
        (.worktree binding.worktreePath)
        (fun f => f = .worktree binding.worktreePath ∨
          f = .held binding.worktreePath binding.issue) :=
      .of_asked h.toGrown worktreeBinding_isSome (by simp)
    have hdry : (worktreeRow rel binding dropped
        (d.db.worktreeBinding binding.worktreePath).isSome).existing = true ↔
        db₀.Has (.worktree binding.worktreePath) := by
      rw [← h.db]
      exact worktreeBinding_isSome
    obtain ⟨d', r', hd, hr, h', -⟩ :=
      h.row env (worktreeRow_spec hcheck) hsees trivial rfl hdry hblocked
    exact ⟨d', r', hd, hr, h'⟩
  scope rel scope dropped hcheck := by
    apply paired_of_ok
    intro d r h
    have hsees : Sees db₀ r
        (sessionRow rel scope dropped (r.db.sessionScope scope.sessionId).isSome)
        (.session scope.sessionId) (fun f => f = .session scope.sessionId) :=
      .of_asked h.toGrown sessionScope_isSome (by simp)
    have hdry : (sessionRow rel scope dropped (d.db.sessionScope scope.sessionId).isSome).existing =
        true ↔ db₀.Has (.session scope.sessionId) := by
      rw [← h.db]
      exact sessionScope_isSome
    obtain ⟨d', r', hd, hr, h', -⟩ := h.row env (sessionRow_spec hcheck) hsees trivial rfl hdry rfl
    exact ⟨d', r', hd, hr, h'⟩
  repos rel scopeKey repos hkey := inStep_repos env hkey

end HerdrBoard.LocalState
