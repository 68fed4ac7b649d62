import HerdrBoard.LocalState.Import
import HerdrBoard.LocalState.Validation
import HerdrBoard.Lib.Paired

/-!
# Two runs of the import in step

The files decide what a run reads, and the database only decides what becomes of each row. So two
runs stay in step under any relation that the rows of one record keep. -/

open Lib HerdrBoard.Core

namespace HerdrBoard.LocalState

variable (env : ImportOutside) (store : WorkStore) {a b : Bool} {R : Import → Import → Prop}

/-! ## What a record that was read is -/

theorem textOk_iff {s : String} :
    textOk s = true ↔ s ≠ "" ∧ ∀ c ∈ s.toList, isControl c = false := by
  simp [textOk]

theorem textOk_strip {s : String} (h : stripControlAndFormat s ≠ "") :
    textOk (stripControlAndFormat s) = true := by
  apply textOk_iff.mpr
  refine ⟨h, ?_⟩
  intro c hc
  simp only [stripControlAndFormat, String.toList_ofList, List.mem_filter, Bool.and_eq_true,
    Bool.not_eq_true'] at hc
  exact hc.2.1

theorem requireText_accepts {value what : String} :
    requireText value what = .ok () ↔ textOk value = true := by
  unfold requireText
  split <;> simp [*]

theorem requireOptionalText_accepts {value : Option String} {what : String} :
    requireOptionalText value what = .ok () ↔ ∀ text, value = some text → textOk text = true := by
  cases value with
  | none => simp [requireOptionalText]
  | some text => simp [requireOptionalText, requireText_accepts]

theorem validateTeamIds_accepts {ids : List String} :
    validateTeamIds ids = .ok () ↔ ∀ id ∈ ids, textOk id = true := by
  induction ids with
  | nil => simp [validateTeamIds]
  | cons id ids ih => simp [validateTeamIds, check_then, requireText_accepts, ih]

theorem optionalText_ok {record : Value} {field : String} {text : Option String}
    (h : optionalText record field = .ok text) : ∀ t, text = some t → textOk t = true := by
  intro t ht
  subst ht
  unfold optionalText at h
  split at h
  · cases h
  · cases h
  · rename_i raw _
    by_cases hempty : stripControlAndFormat raw = ""
    · simp [hempty] at h
    · simp only [hempty, if_false, Except.ok.injEq, Option.some.injEq] at h
      rw [← h]
      exact textOk_strip hempty
  · cases h

theorem bind_accepts {ε α β : Type} {x : Except ε α} {f : α → Except ε β} {b : β} :
    (x >>= f) = .ok b ↔ ∃ a, x = .ok a ∧ f a = .ok b := by
  cases x with
  | error e => simp [bind, Except.bind]
  | ok a => simp [bind, Except.bind]

theorem map_accepts {ε α β : Type} {x : Except ε α} {f : α → β} {b : β} :
    x.map f = .ok b ↔ ∃ a, x = .ok a ∧ f a = b := by
  cases x with
  | error e => simp [Except.map]
  | ok a => simp [Except.map]

theorem requiredText_ok {record : Value} {field text : String}
    (h : requiredText record field = .ok text) : textOk text = true := by
  obtain ⟨found, hfound, hrest⟩ := bind_accepts.mp h
  cases found with
  | none => cases hrest
  | some t =>
      cases hrest
      exact optionalText_ok hfound text rfl

theorem teamIdItems_ok {items : List Value} {ids : List String} (h : teamIdItems items = .ok ids) :
    ∀ id ∈ ids, textOk id = true := by
  induction items generalizing ids with
  | nil =>
      cases h
      simp
  | cons item items ih =>
      unfold teamIdItems at h
      cases htext : (item.asStr.map stripControlAndFormat).filter fun text => text ≠ "" with
      | none =>
          rw [htext] at h
          cases h
      | some text =>
          rw [htext] at h
          obtain ⟨_, heq, h⟩ := bind_accepts.mp h
          cases heq
          obtain ⟨rest, hrest, hids⟩ := bind_accepts.mp h
          cases hids
          obtain ⟨hmap, hne⟩ := Option.filter_eq_some_iff.mp htext
          obtain ⟨raw, -, rfl⟩ := Option.map_eq_some_iff.mp hmap
          intro id hid
          rcases List.mem_cons.mp hid with rfl | hid
          · exact textOk_strip (by simpa using hne)
          · exact ih hrest id hid

theorem teamIds_ok {record : Value} {ids : List String} (h : teamIds record = .ok ids) :
    ∀ id ∈ ids, textOk id = true := by
  unfold teamIds at h
  split at h
  · cases h; simp
  · cases h; simp
  · exact teamIdItems_ok h
  · cases h

theorem spaceOfRecord_ok {session ws : String} {record : Value} {binding : SpaceBinding}
    (h : spaceOfRecord session ws record = .ok binding) : binding.check = .ok () := by
  unfold spaceOfRecord at h
  split at h
  · cases h
  · rename_i hnames
    simp only [Bool.or_eq_true, Bool.not_eq_true', not_or, Bool.not_eq_false] at hnames
    obtain ⟨_, -, h⟩ := bind_accepts.mp h
    obtain ⟨_, -, h⟩ := bind_accepts.mp h
    obtain ⟨projectId, hproject, h⟩ := bind_accepts.mp h
    obtain ⟨displayName, hdisplay, h⟩ := bind_accepts.mp h
    obtain ⟨ids, hids, h⟩ := bind_accepts.mp h
    obtain ⟨view, -, h⟩ := bind_accepts.mp h
    cases h
    simp only [SpaceBinding.check, check_then, requireText_accepts, requireOptionalText_accepts,
      validateTeamIds_accepts]
    exact ⟨hnames.1, hnames.2, requiredText_ok hproject, optionalText_ok hdisplay, teamIds_ok hids⟩

theorem worktreeBinding_ok {record : Value} {binding : WorktreeBinding}
    (h : worktreeBinding record = .ok binding) : binding.check = .ok () := by
  unfold worktreeBinding at h
  cases hpath : ((record.get "worktree_path").bind Value.asStr).filter fun path =>
      path.startsWith "/" && textOk path with
  | none =>
      rw [hpath] at h
      cases h
  | some path =>
      rw [hpath] at h
      obtain ⟨_, heq, h⟩ := bind_accepts.mp h
      cases heq
      obtain ⟨state, -, h⟩ := bind_accepts.mp h
      obtain ⟨issue, hissue, h⟩ := bind_accepts.mp h
      split at h
      · cases h
      · rename_i hidentifier
        obtain ⟨branch, hbranch, h⟩ := bind_accepts.mp h
        obtain ⟨tab, htab, h⟩ := bind_accepts.mp h
        obtain ⟨displayName, hdisplay, h⟩ := bind_accepts.mp h
        obtain ⟨ids, hids, h⟩ := bind_accepts.mp h
        obtain ⟨view, -, h⟩ := bind_accepts.mp h
        cases h
        have hchars := (Option.filter_eq_some_iff.mp hpath).2
        simp only [Bool.and_eq_true] at hchars
        simp only [WorktreeBinding.check, requireAbsolutePath, requireIssue, check_then,
          requireText_accepts, requireOptionalText_accepts, validateTeamIds_accepts]
        refine ⟨⟨hchars.2, by rw [if_pos hchars.1]⟩, ?_, optionalText_ok hbranch,
          optionalText_ok htab, optionalText_ok hdisplay, teamIds_ok hids⟩
        rw [if_pos (by simpa using hidentifier)]

theorem sessionOfFile_ok {rel session : String} (h : sessionOfFile rel = some session) :
    textOk session = true := by
  simpa using (Option.filter_eq_some_iff.mp h).2

theorem scopeOfRecord_ok {session : String} {record : Value} {scope : SessionScope}
    (hsession : textOk session = true)
    (h : scopeOfRecord session record = .ok scope) : scope.check = .ok () := by
  obtain ⟨_, -, h⟩ := bind_accepts.mp h
  obtain ⟨_, -, h⟩ := bind_accepts.mp h
  obtain ⟨teamId, hteam, h⟩ := bind_accepts.mp h
  obtain ⟨teamKey, hkey, h⟩ := bind_accepts.mp h
  cases h
  simp only [SessionScope.check, check_then, requireText_accepts, requireOptionalText_accepts]
  exact ⟨hsession, requiredText_ok hteam, optionalText_ok hkey⟩

theorem reposOfRecord_ok {scopeKey : String} {record : Value} {repos : List String}
    (h : reposOfRecord scopeKey record = .ok repos) : isScopeKey scopeKey = true := by
  unfold reposOfRecord at h
  split at h
  · cases h
  · rename_i hkey
    simpa using hkey

theorem parseBoard_ok {text : String} {config : GroupingConfig}
    (h : parseBoard env text = .ok config) : config.Accepted := by
  obtain ⟨board, -, h⟩ := bind_accepts.mp h
  obtain ⟨spaces, -, h⟩ := bind_accepts.mp h
  obtain ⟨global, -, h⟩ := bind_accepts.mp h
  obtain ⟨_, hvalid, h⟩ := bind_accepts.mp h
  cases h
  apply GroupingConfig.validate_accepts.mp
  cases hcheck : GroupingConfig.validate { global, spaces } with
  | ok a => rfl
  | error e =>
      rw [hcheck] at hvalid
      cases hvalid

/-! ## Runs in step -/

/-- The rows of every kind of record keep the relation. -/
structure KeptByRows (env : ImportOutside) (a b : Bool) (R : Import → Import → Prop) : Prop where
  ignore : ∀ path reason, Paired R (ignore path reason) (ignore path reason)
  skip : ∀ kind source s, Paired R (skip kind source s) (skip kind source s)
  board : ∀ config : GroupingConfig, config.Accepted →
    Paired R (boardRows env a config) (boardRows env b config)
  space : ∀ rel (binding : SpaceBinding) dropped, binding.check = .ok () →
    Paired R (spaceRow env a rel binding dropped) (spaceRow env b rel binding dropped)
  worktree : ∀ rel (binding : WorktreeBinding) dropped, binding.check = .ok () →
    Paired R (bindingRow env a rel binding dropped) (bindingRow env b rel binding dropped)
  scope : ∀ rel (scope : SessionScope) dropped, scope.check = .ok () →
    Paired R (scopeRow env a rel scope dropped) (scopeRow env b rel scope dropped)
  repos : ∀ rel scopeKey repos, isScopeKey scopeKey = true →
    Paired R (reposRows env a rel scopeKey repos) (reposRows env b rel scopeKey repos)

namespace KeptByRows

variable {env store}

theorem entries (dir : String) : Paired R (entries store dir) (entries store dir) := by
  unfold LocalState.entries
  cases store.readDir dir with
  | ok names => exact paired_pure _
  | error e => exact paired_throw _

variable (h : KeptByRows env a b R)

include h

theorem jsonFiles (dir : String) : Paired R (jsonFiles store dir) (jsonFiles store dir) := by
  refine (entries dir).bind fun names => ?_
  induction names with
  | nil => exact paired_pure _
  | cons entry names ih =>
      unfold jsonFilesOf
      dsimp only
      split
      · exact ih.bind fun files => paired_pure _
      · exact (h.ignore _ _).bind fun _ => ih

theorem boardConfig : Paired R (boardConfig env store a) (boardConfig env store b) := by
  unfold LocalState.boardConfig
  cases hread : (readRecord env store "board.json").bind fun r => parseBoard env r.1 with
  | error s => exact h.skip _ _ _
  | ok config =>
      obtain ⟨record, -, hparse⟩ := bind_accepts.mp hread
      exact h.board config (parseBoard_ok env hparse)

theorem spaceRecord (session ws rel : String) :
    Paired R (spaceRecord env store a session ws rel) (spaceRecord env store b session ws rel) := by
  unfold LocalState.spaceRecord
  cases hread : (readRecord env store rel).bind fun r =>
      (spaceOfRecord session ws r.2).map fun binding => (binding, r.2) with
  | error s => exact h.skip _ _ _
  | ok found =>
      obtain ⟨⟨_, record⟩, -, hparse⟩ := bind_accepts.mp hread
      obtain ⟨binding, hspace, rfl⟩ := map_accepts.mp hparse
      exact h.space _ _ _ (spaceOfRecord_ok hspace)

theorem keyedSpaces (session dir : String) (files : List (String × Bool)) :
    Paired R (keyedSpaces session dir files) (keyedSpaces session dir files) := by
  induction files with
  | nil => exact paired_pure _
  | cons file files ih =>
      unfold LocalState.keyedSpaces
      dsimp only
      split
      · exact ih.bind fun spaces => paired_pure _
      · exact (h.ignore _ _).bind fun _ => ih

theorem listSpaces (names : List (String × Bool)) :
    Paired R (listSpaces store names) (listSpaces store names) := by
  induction names with
  | nil => exact paired_pure _
  | cons entry names ih =>
      unfold LocalState.listSpaces
      dsimp only
      split
      · exact (entries _).bind fun files => (h.keyedSpaces _ _ _).bind fun here =>
          ih.bind fun rest => paired_pure _
      · split
        · exact ih.bind fun rest => paired_pure _
        · exact (h.ignore _ _).bind fun _ => ih

theorem workspaces : Paired R (workspaces env store a) (workspaces env store b) := by
  refine (entries _).bind fun names => (h.listSpaces names).bind fun lists => ?_
  obtain ⟨keyed, flat⟩ := lists
  have hkeyed (records : List (String × String × String)) :
      Paired R (keyedRecords env store a records) (keyedRecords env store b records) := by
    induction records with
    | nil => exact paired_pure _
    | cons record records ih => exact (h.spaceRecord _ _ _).bind fun _ => ih
  have hflat (known : List String) (records : List (String × String)) :
      Paired R (flatRecords env store a known records) (flatRecords env store b known records) := by
    induction records with
    | nil => exact paired_pure _
    | cons record records ih =>
        unfold flatRecords
        dsimp only
        split
        · exact (h.skip _ _ _).bind fun _ => ih
        · exact (h.spaceRecord _ _ _).bind fun _ => ih
  exact (hkeyed keyed).bind fun _ => hflat _ flat

theorem bindingRecord (rel : String) :
    Paired R (bindingRecord env store a rel) (bindingRecord env store b rel) := by
  unfold LocalState.bindingRecord
  cases readRecord env store rel with
  | error s => exact h.skip _ _ _
  | ok found =>
      dsimp only
      cases hparse : worktreeBinding found.2 with
      | error s => exact h.skip _ _ _
      | ok binding => exact h.worktree _ _ _ (worktreeBinding_ok hparse)

theorem contextRecord (rel : String) :
    Paired R (contextRecord env store a rel) (contextRecord env store b rel) := by
  unfold LocalState.contextRecord
  cases hsession : sessionOfFile rel with
  | none => exact h.ignore _ _
  | some session =>
      dsimp only
      cases hread : (readRecord env store rel).bind fun r =>
          (scopeOfRecord session r.2).map fun scope => (scope, r.2) with
      | error s => exact h.skip _ _ _
      | ok found =>
          obtain ⟨⟨_, record⟩, -, hparse⟩ := bind_accepts.mp hread
          obtain ⟨scope, hscope, rfl⟩ := map_accepts.mp hparse
          exact h.scope _ _ _ (scopeOfRecord_ok (sessionOfFile_ok hsession) hscope)

theorem scopeRecord (rel : String) :
    Paired R (scopeRecord env store a rel) (scopeRecord env store b rel) := by
  unfold LocalState.scopeRecord
  cases hread : (readRecord env store rel).bind fun r => reposOfRecord (scopeKeyOfFile rel) r.2 with
  | error s => exact h.skip _ _ _
  | ok repos =>
      obtain ⟨record, -, hparse⟩ := bind_accepts.mp hread
      exact h.repos _ _ _ (reposOfRecord_ok hparse)

/-- Files of one directory, each handled alike. -/
theorem records {f g : List String → ImportM Unit} {one two : String → ImportM Unit}
    (hnil : f [] = pure () ∧ g [] = pure ())
    (hcons : ∀ rel rest, f (rel :: rest) = (one rel >>= fun _ => f rest) ∧
      g (rel :: rest) = (two rel >>= fun _ => g rest))
    (hone : ∀ rel, Paired R (one rel) (two rel)) (dir : String) :
    Paired R (LocalState.jsonFiles store dir >>= f) (LocalState.jsonFiles store dir >>= g) := by
  refine (h.jsonFiles dir).bind fun files => ?_
  induction files with
  | nil =>
      rw [hnil.1, hnil.2]
      exact paired_pure _
  | cons rel files ih =>
      rw [(hcons rel files).1, (hcons rel files).2]
      exact (hone rel).bind fun _ => ih

theorem handledEntries (names : List (String × Bool)) :
    Paired R (handledEntries names) (handledEntries names) := by
  induction names with
  | nil => exact paired_pure _
  | cons entry names ih =>
      unfold LocalState.handledEntries
      split
      · exact ih.bind fun handled => paired_pure _
      · exact (h.ignore _ _).bind fun _ => ih

omit h in
theorem whenHandled {handled : List String} {name : String} {x y : ImportM Unit}
    (hxy : Paired R x y) : Paired R (whenHandled handled name x) (whenHandled handled name y) := by
  unfold LocalState.whenHandled
  split
  · exact hxy
  · exact paired_pure _

/-- What the rows of every kind of record keep, the whole import keeps. -/
theorem importEntries : Paired R (importEntries env store a) (importEntries env store b) := by
  refine (entries "").bind fun names => (h.handledEntries names).bind fun handled => ?_
  refine (whenHandled h.boardConfig).bind fun _ => ?_
  refine (whenHandled h.workspaces).bind fun _ => ?_
  refine (whenHandled (h.records ⟨rfl, rfl⟩
    (fun _ _ => ⟨rfl, rfl⟩) h.bindingRecord "bindings")).bind fun _ => ?_
  refine (whenHandled (h.records ⟨rfl, rfl⟩
    (fun _ _ => ⟨rfl, rfl⟩) h.contextRecord "contexts")).bind fun _ => ?_
  exact whenHandled (h.records ⟨rfl, rfl⟩ (fun _ _ => ⟨rfl, rfl⟩) h.scopeRecord "scopes")

end KeptByRows

end HerdrBoard.LocalState
