import HerdrBoard.LocalState.Importing
import HerdrBoard.LocalState.Regrouping

/-!
# The import over time

Every database the program leaves is rooted: its overrides stand beside a global row. On
such a database a dry run lists what the real run lists, and a second real run finds the
rows of the first. -/

open Lib HerdrBoard.Core

namespace HerdrBoard.LocalState

variable (env : ImportOutside) (store : WorkStore) {db t : LinearDb}

/-! ## Changes of the config keep it rooted -/

/-- A row of the table stands beside a global one. -/
def GroupingRooted (table : Table GroupingRow) : Prop :=
  ∀ r ∈ table, ∃ global ∈ table, global.space = none

theorem rooted_iff : db.Rooted ↔ GroupingRooted db.grouping := by
  constructor
  · intro h r hr
    cases hspace : r.space with
    | none => exact ⟨r, hr, hspace⟩
    | some space => exact h space ⟨r, hr, hspace⟩
  · rintro h space ⟨r, hr, -⟩
    exact h r hr

def StaysRooted (db t : LinearDb) : Prop := db.Rooted → t.Rooted

instance : Std.Refl StaysRooted := ⟨fun _ h => h⟩

instance : IsTrans LinearDb StaysRooted := ⟨fun _ _ _ h h' hdb => h' (h hdb)⟩

theorem execGrouping_staysRooted {f : Table GroupingRow → Table GroupingRow}
    (hf : GroupingRooted db.grouping → GroupingRooted (f db.grouping)) :
    StaysRooted db (finalState (execGrouping f db)) := by
  intro hrooted
  unfold execGrouping
  split
  · exact rooted_iff.mpr (hf (rooted_iff.mp hrooted))
  · exact hrooted

theorem groupingRooted_putGlobal {position : Int} {mapping : GroupingMapping}
    (table : Table GroupingRow) : GroupingRooted (putGrouping none position mapping table) := by
  intro r hr
  rcases mem_putGrouping.mp hr with ⟨r₀, hr₀, rfl⟩ | ⟨hnew, rfl⟩
  · by_cases hglobal : ∃ g ∈ table, g.space = none
    · obtain ⟨g, hg, hspace⟩ := hglobal
      exact ⟨{ g with mapping }, mem_putGrouping.mpr (.inl ⟨g, hg, if_pos hspace⟩), hspace⟩
    · have hnew : ∀ g ∈ table, g.space ≠ none := fun g hg hspace => hglobal ⟨g, hg, hspace⟩
      exact ⟨_, mem_putGrouping.mpr (.inr ⟨hnew, rfl⟩), rfl⟩
  · exact ⟨_, hr, rfl⟩

theorem groupingRooted_putSpace {space : String} {position : Int} {mapping : GroupingMapping}
    {table : Table GroupingRow} (hglobal : ∃ g ∈ table, g.space = none) :
    GroupingRooted (putGrouping (some space) position mapping table) := by
  intro r hr
  obtain ⟨g, hg, hspace⟩ := hglobal
  exact ⟨g, mem_putGrouping.mpr (.inl ⟨g, hg, if_neg (by simp [hspace])⟩), hspace⟩

theorem groupingRooted_delete {space : String} {table : Table GroupingRow}
    (h : GroupingRooted table) :
    GroupingRooted (table.delete fun r => decide (r.space = some space)) := by
  intro r hr
  obtain ⟨g, hg, hspace⟩ := h r (Table.mem_delete.mp hr).1
  exact ⟨g, Table.mem_delete.mpr ⟨hg, by simp [hspace]⟩, hspace⟩

theorem setGroupingGlobal_staysRooted (m : GroupingMapping) :
    Respects StaysRooted (setGroupingGlobal m) :=
  (readOnly_fromExcept _).respects.bind fun _ => fun _ => execGrouping_staysRooted fun _ =>
    groupingRooted_putGlobal _

theorem setGroupingSpace_staysRooted (space : String) (m : GroupingMapping) :
    Respects StaysRooted (setGroupingSpace space m) := by
  refine (readOnly_fromExcept _).respects.bind fun _ =>
    (readOnly_fromExcept _).respects.bind fun _ => .transaction ?_
  refine readOnly_get.bind_respects fun db db' hget => ?_
  obtain ⟨rfl, -⟩ := get_ok.mp hget
  refine (readOnly_refuse _ _).bind_at fun _ hrefuse => execGrouping_staysRooted fun _ =>
    groupingRooted_putSpace ?_
  cases hglobal : db.groupingRow? none with
  | none => exact absurd (by simp [hglobal]) (refuse_ok.mp hrefuse).1
  | some g => exact ⟨g, groupingRow?_eq_some.mp hglobal⟩

theorem removeGroupingSpace_staysRooted (space : String) :
    Respects StaysRooted (removeGroupingSpace space) :=
  readOnly_get.respects.bind fun _ => Respects.bind
    (fun _ => execGrouping_staysRooted groupingRooted_delete) fun _ => respects_pure _

theorem LinearDb.Holds.rooted {book : Option GroupingBook} (h : db.Holds book) : db.Rooted := by
  rintro space ⟨r, hr, -⟩
  cases book with
  | none =>
      have hrows : db.grouping.rows = [] := h
      exact absurd (hrows ▸ (show r ∈ db.grouping.rows from hr)) List.not_mem_nil
  | some book =>
      obtain ⟨g, hg, -⟩ := Option.map_eq_some_iff.mp h.1
      exact ⟨g, groupingRow?_eq_some.mp hg⟩

theorem replaceGrouping_staysRooted (config : GroupingConfig) :
    Respects StaysRooted (replaceGrouping config) := by
  intro db hrooted
  have hreal : Realises (replaceGrouping config) db _ := replaceGrouping_realises none config
  cases hask : (GroupingChange.replace config).ask none with
  | none =>
      rw [hask] at hreal
      obtain ⟨e, he⟩ := hreal
      rw [he]
      exact hrooted
  | some after =>
      rw [hask] at hreal
      obtain ⟨a, t, ht, hholds⟩ := hreal
      rw [ht]
      exact hholds.rooted

theorem GroupingOp.staysRooted (out : Outside) (op : GroupingOp) :
    Respects StaysRooted (op.run out) := by
  cases op with
  | setGlobal m => exact respects_ofStore (setGroupingGlobal_staysRooted m)
  | setSpace space m => exact respects_ofStore (setGroupingSpace_staysRooted space m)
  | removeSpace space =>
      exact (respects_ofStore (removeGroupingSpace_staysRooted space)).bind fun _ => respects_pure _
  | replace config => exact respects_ofStore (replaceGrouping_staysRooted config)
  | change p write =>
      refine Respects.bind ?_ fun _ => respects_pure _
      refine readOnly_get.respects.bind fun db =>
        (readOnly_fromExcept _).respects.bind fun after => ?_
      refine (readOnly_fromExcept _).respects.bind fun _ => respects_ite (fun _ => ?_) fun _ =>
        respects_pure _
      refine (respects_ofStore (replaceGrouping_staysRooted after)).bind fun _ => ?_
      exact readOnly_get.respects.bind fun _ => respects_pure _

/-! ## The databases there are -/

/-- A database the program can leave. What is written elsewhere than in the config is any change of
the other tables. -/
inductive Reached : LinearDb → Prop
  | fresh : Reached .fresh
  | regrouped (out : Outside) (op : GroupingOp) {db : LinearDb} (h : Reached db) :
      Reached (finalState (op.run out db))
  | imported (env : ImportOutside) (store : WorkStore) {db : LinearDb} (h : Reached db) :
      Reached (importWorkStore env store false db).2
  | elsewhere {db t : LinearDb} (h : Reached db) (hsame : t.grouping = db.grouping) : Reached t

/-! ## Every run of the import -/

/-- What a real run leaves of the database, however it ends. -/
theorem importWorkStore_grown (hrooted : db.Rooted) :
    db.Within (importWorkStore env store false db).2 ∧
    (importWorkStore env store false db).2.Rooted := by
  unfold importWorkStore
  cases store.metadata with
  | notFound => exact ⟨.refl db, hrooted⟩
  | unreadable e => exact ⟨.refl db, hrooted⟩
  | file => exact ⟨.refl db, hrooted⟩
  | directory =>
      have hsteps : Paired (InStep db) (importEntries env store true)
          (importEntries env store false) :=
        (keptByRows_inStep env hrooted).importEntries
      rcases hsteps.outcomes (.start hrooted) with ⟨a, d, r, -, hreal, h⟩ | ⟨e, d, r, -, hreal, h⟩
      · rw [hreal]
        exact ⟨h.within, h.rooted⟩
      · rw [hreal]
        exact ⟨h.within, h.rooted⟩

/-- A dry run leaves the database, and returns what the real run returns. -/
theorem importWorkStore_preview (hrooted : db.Rooted) :
    (importWorkStore env store true db).2 = db ∧
      (importWorkStore env store true db).1.map ImportOutcome.result =
        (importWorkStore env store false db).1.map fun out =>
          { out.result with dryRun := true } := by
  unfold importWorkStore
  cases store.metadata with
  | notFound => exact ⟨rfl, rfl⟩
  | unreadable e => exact ⟨rfl, rfl⟩
  | file => exact ⟨rfl, rfl⟩
  | directory =>
      have hsteps : Paired (InStep db) (importEntries env store true)
          (importEntries env store false) :=
        (keptByRows_inStep env hrooted).importEntries
      rcases hsteps.outcomes (.start hrooted) with
          ⟨a, d, r, hdry, hreal, h⟩ | ⟨e, d, r, hdry, hreal, h⟩
      · rw [hdry, hreal]
        simp [h.db, Except.map, Import.finish, h.imported, h.skipped, h.ignored]
      · rw [hdry, hreal]
        exact ⟨h.db, rfl⟩

theorem Reached.rooted (h : Reached db) : db.Rooted := by
  induction h with
  | fresh => exact rooted_iff.mpr fun r hr => absurd hr List.not_mem_nil
  | regrouped out op h ih => exact op.staysRooted out _ ih
  | imported env store h ih => exact (importWorkStore_grown env store ih).2
  | elsewhere h hsame ih => exact rooted_iff.mpr (hsame ▸ rooted_iff.mp ih)

/-- What a second run returns after a first: the same failure, or a list of the first one's
records as present. -/
inductive FindsAll : Except ImportError ImportOutcome → Except ImportError ImportOutcome → Prop
  | failed (e : ImportError) : FindsAll (.error e) (.error e)
  | listed {first second : ImportOutcome} (himported : second.result.imported = [])
      (hagain : ∀ item ∈ first.result.imported, item.again ∈ second.result.skipped) :
      FindsAll (.ok first) (.ok second)

theorem importWorkStore_again (hrooted : db.Rooted) :
    (importWorkStore env store false (importWorkStore env store false db).2).2 =
      (importWorkStore env store false db).2 ∧ FindsAll (importWorkStore env store false db).1
        (importWorkStore env store false (importWorkStore env store false db).2).1 := by
  generalize hleft : (importWorkStore env store false db).2 = db₁
  have hrooted₁ : db₁.Rooted := hleft ▸ (importWorkStore_grown env store hrooted).2
  unfold importWorkStore at hleft ⊢
  cases hmetadata : store.metadata with
  | notFound => exact ⟨rfl, .listed rfl (by simp [Import.finish, Import.start])⟩
  | unreadable e => exact ⟨rfl, .failed _⟩
  | file => exact ⟨rfl, .failed _⟩
  | directory =>
      rw [hmetadata] at hleft
      have hsteps : Paired (Repeated db db₁) (importEntries env store false)
          (importEntries env store false) :=
        (keptByRows_repeated env hrooted₁).importEntries
      have hstart : Repeated db db₁ (.start db) (.start db₁) :=
        { toGrown := .start hrooted, after := fun _ => ⟨rfl, rfl, rfl, by simp [Import.start]⟩ }
      rcases hsteps.outcomes hstart with
          ⟨a, r, q, hfirst, hsecond, h⟩ | ⟨e, r, q, hfirst, hsecond, h⟩
      · simp only [hfirst] at hleft
        have hrest := h.after (hleft ▸ .refl _)
        simp only [hfirst, hsecond]
        exact ⟨hrest.db, .listed hrest.imported hrest.again⟩
      · simp only [hfirst] at hleft
        have hrest := h.after (hleft ▸ .refl _)
        simp only [hfirst, hsecond]
        exact ⟨hrest.db, .failed e⟩

theorem import_previewed_and_insert_only (h : Reached db) :
    (importWorkStore env store true db).2 = db ∧
      (importWorkStore env store true db).1.map ImportOutcome.result =
        (importWorkStore env store false db).1.map (fun out => { out.result with dryRun := true }) ∧
      db.Within (importWorkStore env store false db).2 ∧
      (importWorkStore env store false (importWorkStore env store false db).2).2 =
      (importWorkStore env store false db).2 ∧ FindsAll (importWorkStore env store false db).1
        (importWorkStore env store false (importWorkStore env store false db).2).1 := by
  obtain ⟨hleft, hlists⟩ := importWorkStore_preview env store h.rooted
  obtain ⟨hsame, hfinds⟩ := importWorkStore_again env store h.rooted
  exact ⟨hleft, hlists, (importWorkStore_grown env store h.rooted).1, hsame, hfinds⟩

/-! ## A store with a board config -/

def urgentByTeam : GroupingMapping :=
  { levels := [("row", "team")], filter := [("priority", .array [.number (.posInt 1)])] }

/-- Every record reads as one board config. -/
def boardReader : ImportOutside where
  toOutside := { Outside.silent with
    parseJson := fun _ => .ok (.object [("version", .number (.posInt 1))])
    mappingOfValue := fun _ => .ok urgentByTeam }
  euid := 0
  boardOfText _ := .ok (urgentByTeam, [("web", urgentByTeam)])
  errorText _ := "refused"

def boardStore : WorkStore where
  path := "/store"
  metadata := .directory
  readDir _ := .ok [("board.json", false)]
  openFile _ := .opened
    (.ok { isFile := true, uid := 0, mode := 0o600, len := 2, text := .ok "\x7b\x7d" })

theorem import_previewed_and_insert_only_board :
    ((importWorkStore boardReader boardStore false .fresh).1.map fun out =>
        out.result.imported.map LinearImportItem.key) = .ok ["global", "space web"] ∧
      (importWorkStore boardReader boardStore true .fresh).1.map ImportOutcome.result =
        (importWorkStore boardReader boardStore false .fresh).1.map
          (fun out => { out.result with dryRun := true }) ∧
      FindsAll (importWorkStore boardReader boardStore false .fresh).1
        (importWorkStore boardReader boardStore false
          (importWorkStore boardReader boardStore false .fresh).2).1 :=
  have h := import_previewed_and_insert_only boardReader boardStore .fresh
  ⟨by decide +kernel, h.2.1, h.2.2.2.2⟩

end HerdrBoard.LocalState
