import HerdrBoard.Grouping.Engine
import HerdrBoard.Lib.Partition

/-!
# The configured board

Every issue of the space stands in one cell of a configured board, at the groups its fields give it.
-/

open Lib HerdrBoard.Core HerdrBoard.LocalState

namespace HerdrBoard.Grouping

variable {lowercase : String → String} {mapping : GroupingMapping}

/-! ## Distinct groups -/

theorem mem_firstByKey {groups : List Group} (seen : Ledger Group) {g : Group}
    (h : g ∈ groups.foldl
      (fun byKey g => if (byKey.find? g.key).isSome then byKey else byKey.upsert g) seen) :
    g ∈ seen ∨ g ∈ groups := by
  induction groups generalizing seen with
  | nil => exact .inl h
  | cons a groups ih =>
      rw [List.foldl_cons] at h
      rcases ih _ h with hseen | hin
      · split at hseen
        · exact .inl hseen
        · rcases Ledger.mem_upsert.mp hseen with rfl | ⟨hseen, -⟩
          · exact .inr (by simp)
          · exact .inl hseen
      · exact .inr (List.mem_cons_of_mem _ hin)

theorem key_firstByKey {groups : List Group} (seen : Ledger Group) {k : String}
    (h : (∃ g ∈ seen, g.key = k) ∨ ∃ g ∈ groups, g.key = k) :
    ∃ g ∈ groups.foldl (fun byKey g => if (byKey.find? g.key).isSome then byKey
      else byKey.upsert g) seen, g.key = k := by
  induction groups generalizing seen with
  | nil => simpa using h
  | cons a groups ih =>
      rw [List.foldl_cons]
      apply ih
      rcases h with ⟨g, hg, rfl⟩ | ⟨g, hg, rfl⟩
      · refine .inl ?_
        split
        · exact ⟨g, hg, rfl⟩
        · by_cases hkey : g.key = a.key
          · exact ⟨a, Ledger.mem_upsert_self, hkey.symm⟩
          · exact ⟨g, Ledger.mem_upsert.mpr (.inr ⟨hg, hkey⟩), rfl⟩
      · rcases List.mem_cons.mp hg with rfl | hg
        · refine .inl ?_
          split
          · next hseen =>
              obtain ⟨first, hfirst⟩ := Option.isSome_iff_exists.mp hseen
              obtain ⟨hin, hkey⟩ := Ledger.find?_eq_some.mp hfirst
              exact ⟨first, hin, hkey⟩
          · exact ⟨g, Ledger.mem_upsert_self, rfl⟩
        · exact .inr ⟨g, hg, rfl⟩

theorem mem_of_mem_distinct {groups : List Group} {g : Group} (h : g ∈ distinct groups) :
    g ∈ groups := by
  rcases mem_firstByKey .empty ((List.mem_insertionSort _).mp h) with hnone | hin
  · exact absurd hnone (by simp)
  · exact hin

theorem key_mem_distinct {groups : List Group} {g : Group} (h : g ∈ groups) :
    g.key ∈ (distinct groups).map Group.key := by
  obtain ⟨first, hfirst, hkey⟩ := key_firstByKey (.empty) (.inr ⟨g, h, rfl⟩)
  exact List.mem_map.mpr ⟨first, (List.mem_insertionSort _).mpr hfirst, hkey⟩

theorem nodup_distinct (groups : List Group) : ((distinct groups).map Group.key).Nodup := by
  have hperm := List.perm_insertionSort (fun a b : Group => a.order ≤ b.order)
    (firstByKey groups).rows
  refine (hperm.map Group.key).nodup_iff.mpr ?_
  exact (List.pairwise_map).mpr ((firstByKey groups).ascending.imp fun h => h.ne)

/-- Distinct groups are in strict group order. -/
theorem ascending_distinct (groups : List Group) :
    (distinct groups).Pairwise fun a b => a.order < b.order := by
  have hle : (distinct groups).Pairwise fun a b => a.order ≤ b.order := pairwise_insertionSort_key _
  have hne := List.pairwise_map.mp (nodup_distinct groups)
  exact (hle.and hne).imp fun ⟨hle, hne⟩ => lt_of_le_of_ne hle fun heq =>
    hne (Group.key_eq_of_order heq)

/-! ## The groups of a level -/

theorem nodup_levelGroups (level : Option String) (groups : List Group) :
    ((levelGroups level groups).map keyOf).Nodup := by
  cases level with
  | none => simp [levelGroups]
  | some kind =>
      have hkeys := (nodup_distinct groups).map (Option.some_injective String)
      simpa [levelGroups, keyOf, List.map_map, Function.comp_def] using hkeys

variable {level : Option String} {f : Placed → Option Group} {placed : List Placed}

theorem keyOf_mem_levelGroups (hf : ∀ p ∈ placed, (f p).isSome = level.isSome) {p : Placed}
    (hp : p ∈ placed) : keyOf (f p) ∈ (levelGroups level (placed.filterMap f)).map keyOf := by
  have hp' := hf p hp
  cases level with
  | none =>
      rw [Option.isSome_none, Option.isSome_eq_false_iff, Option.isNone_iff_eq_none] at hp'
      simp [levelGroups, hp']
  | some kind =>
      obtain ⟨g, hg⟩ := Option.isSome_iff_exists.mp hp'
      have hkey := key_mem_distinct (List.mem_filterMap.mpr ⟨p, hp, hg⟩)
      obtain ⟨first, hfirst, hsame⟩ := List.mem_map.mp hkey
      exact List.mem_map.mpr
        ⟨some first, List.mem_map.mpr ⟨first, hfirst, rfl⟩, by simp [keyOf, hg, hsame]⟩

/-- The parts of the placed issues at the groups of a level are all of them. -/
theorem levelGroups_perm (hf : ∀ p ∈ placed, (f p).isSome = level.isSome) :
    ((levelGroups level (placed.filterMap f)).flatMap fun g => placed.filter fun p => keyOf (f p) ==
      keyOf g).Perm
      placed := by
  have hparts := parts_perm (nodup_levelGroups level (placed.filterMap f)) fun p hp =>
    keyOf_mem_levelGroups hf hp
  rwa [List.flatMap_map] at hparts

theorem isSome_of_mem_levelGroups {groups : List Group} {g : Option Group}
    (h : g ∈ levelGroups level groups) : g.isSome = level.isSome := by
  cases level with
  | none => simp_all [levelGroups]
  | some kind =>
      obtain ⟨g', -, rfl⟩ := List.mem_map.mp h
      rfl

theorem keyOf_eq_iff {g g' : Option Group} (h : g.isSome = g'.isSome) :
    keyOf g = keyOf g' ↔ (g.map Group.key).getD "" = (g'.map Group.key).getD "" := by
  cases g <;> cases g' <;> simp_all [keyOf]

/-! ## The board's shape -/

/-- The key of an issue at a level, empty at one that is not set. -/
def levelKey (lowercase : String → String) (mapping : GroupingMapping) (level : String)
    (issue : GroupingIssue) : String :=
  ((fieldLevel mapping level).map fun kind => (fieldGroup lowercase issue kind).key).getD ""

/-- The heads of a level are the groups of the issues, each key once, in group order. -/
def LevelHeads (lowercase : String → String) (mapping : GroupingMapping) (level : String)
    (unset : List (String × String))
    (issues : List GroupingIssue) (heads : List (String × String)) : Prop :=
  match fieldLevel mapping level with
  | some kind => ∃ groups : List Group,
      heads = groups.map (fun g => (g.key, g.label)) ∧ (groups.map Group.key).Nodup ∧
      groups.Pairwise (fun a b => a.order < b.order) ∧
      (∀ g ∈ groups, ∃ issue ∈ issues, fieldGroup lowercase issue kind = g) ∧
      ∀ issue ∈ issues, (fieldGroup lowercase issue kind).key ∈ groups.map Group.key
  | none => heads = unset

/-- A board that shows the issues of the space, each in the one cell its fields give it. -/
structure Partitions (lowercase : String → String) (mapping : GroupingMapping)
    (shown : List GroupingIssue) (board : List LinearTab) : Prop where
  /-- The columns of all tabs together list each issue once. -/
  once : (board.flatMap fun t => t.groups.flatMap LinearGroup.issues).Perm (shown.map identifier)
  column : ∀ t ∈ board, ∀ g ∈ t.groups, ∀ id, id ∈ g.issues ↔
    ∃ issue ∈ shown, identifier issue = id ∧
    levelKey lowercase mapping "tab" issue = t.key ∧
    levelKey lowercase mapping "column" issue = g.key
  /-- The lanes of a column together list each of its issues once. -/
  laned : (fieldLevel mapping "row").isSome → ∀ t ∈ board, ∀ g ∈ t.groups,
    (g.lanes.flatMap LinearLane.issues).Perm g.issues
  lane : ∀ t ∈ board, ∀ g ∈ t.groups, ∀ l ∈ g.lanes, ∀ id, id ∈ l.issues ↔
    ∃ issue ∈ shown, identifier issue = id ∧
    levelKey lowercase mapping "tab" issue = t.key ∧
    levelKey lowercase mapping "column" issue = g.key ∧
    levelKey lowercase mapping "row" issue = l.key
  tabs : LevelHeads lowercase mapping "tab" [("", DEFAULT_TAB)] shown
    (board.map fun t => (t.key, t.label))
  columns : ∀ t ∈ board, LevelHeads lowercase mapping "column" [("", UNGROUPED_COLUMN)]
    (shown.filter fun issue => levelKey lowercase mapping "tab" issue == t.key)
      (t.groups.map fun g => (g.key, g.label))
  lanes : ∀ t ∈ board, ∀ g ∈ t.groups, LevelHeads lowercase mapping "row" []
    (shown.filter fun issue => levelKey lowercase mapping "tab" issue == t.key)
      (g.lanes.map fun l => (l.key, l.label))
  /-- Every column of a tab has the same lanes. -/
  across : ∀ t ∈ board, ∀ g ∈ t.groups, ∀ g' ∈ t.groups,
    (g.lanes.map fun l => (l.key, l.label)) = g'.lanes.map fun l => (l.key, l.label)

/-! ## Placed issues -/

variable {issues : List GroupingIssue} {space : Option String}

/-- The issues that pass the space level. -/
def shownIssues (lowercase : String → String) (issues : List GroupingIssue)
    (mapping : GroupingMapping)
    (space : Option String) : List GroupingIssue := issues.filter (inSpace lowercase mapping space)

theorem placedIssues_perm :
    ((placedIssues lowercase issues mapping space).map Placed.issue).Perm
      (shownIssues lowercase issues mapping space) := by
  have hsorted := List.perm_insertionSort
    (fun a b => issueOrder (mapping.levels.any fun l => l.2 == "sub-ticket") a ≤
      issueOrder (mapping.levels.any fun l => l.2 == "sub-ticket") b) issues
  have hids : Placed.issue ∘ placeIssue lowercase mapping = id := rfl
  rw [placedIssues, List.map_map, hids, List.map_id]
  exact hsorted.filter _

theorem eq_placeIssue {p : Placed} (hp : p ∈ placedIssues lowercase issues mapping space) :
    p = placeIssue lowercase mapping p.issue := by
  obtain ⟨issue, -, rfl⟩ := List.mem_map.mp hp
  rfl

/-- `f` reads the group of a level off a placed issue. -/
def Reads (lowercase : String → String) (mapping : GroupingMapping) (level : String)
    (f : Placed → Option Group) (placed : List Placed) : Prop :=
  ∀ p ∈ placed, f p = (fieldLevel mapping level).map (fieldGroup lowercase p.issue)

section Reads

variable {name : String}

theorem reads_tab :
    Reads lowercase mapping "tab" Placed.tab (placedIssues lowercase issues mapping space) := by
  intro p hp
  rw [eq_placeIssue hp]
  rfl

theorem reads_column :
    Reads lowercase mapping "column" Placed.column
      (placedIssues lowercase issues mapping space) := by
  intro p hp
  rw [eq_placeIssue hp]
  rfl

theorem reads_row :
    Reads lowercase mapping "row" Placed.row (placedIssues lowercase issues mapping space) := by
  intro p hp
  rw [eq_placeIssue hp]
  rfl

variable (h : Reads lowercase mapping name f placed)

include h

theorem Reads.filter (keep : Placed → Bool) : Reads lowercase mapping name f (placed.filter keep) :=
  fun p hp => h p (List.mem_of_mem_filter hp)

theorem Reads.isSome : ∀ p ∈ placed, (f p).isSome = (fieldLevel mapping name).isSome := by
  intro p hp
  rw [h p hp, Option.isSome_map]

theorem Reads.key {p : Placed} (hp : p ∈ placed) :
    levelKey lowercase mapping name p.issue = ((f p).map Group.key).getD "" := by
  rw [h p hp, levelKey, Option.map_map]
  rfl

/-- The part of a group of the level holds the issues of its key. -/
theorem Reads.mem_part {g : Option Group} (hg : g.isSome = (fieldLevel mapping name).isSome)
    {p : Placed} : (p ∈ placed.filter fun p => keyOf (f p) == keyOf g) ↔
      p ∈ placed ∧ levelKey lowercase mapping name p.issue = (g.map Group.key).getD "" := by
  rw [List.mem_filter, beq_iff_eq]
  apply and_congr_right
  intro hp
  rw [keyOf_eq_iff ((h.isSome p hp).trans hg.symm), h.key hp]

theorem Reads.filterMap {kind : String} (hkind : fieldLevel mapping name = some kind) :
    placed.filterMap f = placed.map fun p => fieldGroup lowercase p.issue kind := by
  rw [← List.filterMap_eq_map]
  apply List.filterMap_congr
  intro p hp
  rw [h p hp, hkind]
  rfl

theorem Reads.heads_of_set {kind : String} (hkind : fieldLevel mapping name = some kind)
    {unset : List (String × String)} :
    LevelHeads lowercase mapping name unset (placed.map Placed.issue)
      ((distinct (placed.filterMap f)).map fun g => (g.key, g.label)) := by
  simp only [LevelHeads, hkind]
  refine ⟨_, rfl, nodup_distinct _, ascending_distinct _, ?_, ?_⟩
  · intro g hg
    have hmem := mem_of_mem_distinct hg
    rw [h.filterMap hkind] at hmem
    obtain ⟨p, hp, rfl⟩ := List.mem_map.mp hmem
    exact ⟨p.issue, List.mem_map_of_mem hp, rfl⟩
  · intro issue hissue
    obtain ⟨p, hp, rfl⟩ := List.mem_map.mp hissue
    apply key_mem_distinct
    rw [h.filterMap hkind]
    exact List.mem_map_of_mem hp

theorem Reads.heads {label : String} :
    LevelHeads lowercase mapping name [("", label)] (placed.map Placed.issue)
    ((levelGroups (fieldLevel mapping name) (placed.filterMap f)).map fun g =>
      ((g.map Group.key).getD "", (g.map Group.label).getD label)) := by
  cases hlevel : fieldLevel mapping name with
  | none => simp [LevelHeads, hlevel, levelGroups]
  | some kind =>
      have hset : LevelHeads _ _ _ [("", label)] _ _ := h.heads_of_set hlevel
      simpa only [levelGroups, List.map_map, Function.comp_def, Option.map_some, Option.getD_some]
        using hset

theorem Reads.row_heads : LevelHeads lowercase mapping name [] (placed.map Placed.issue)
    ((distinct (placed.filterMap f)).map fun g => (g.key, g.label)) := by
  cases hlevel : fieldLevel mapping name with
  | none =>
      have hnone : placed.filterMap f = [] := by
        rw [List.filterMap_eq_nil_iff]
        intro p hp
        rw [h p hp, hlevel]
        rfl
      simp only [LevelHeads, hlevel, hnone]
      rfl
  | some kind => exact h.heads_of_set hlevel

end Reads

theorem LevelHeads.congr {name : String} {unset : List (String × String)}
    {issues issues' : List GroupingIssue}
    {heads : List (String × String)} (h : LevelHeads lowercase mapping name unset issues heads)
    (hmem : ∀ issue, issue ∈ issues ↔ issue ∈ issues') :
    LevelHeads lowercase mapping name unset issues' heads := by
  unfold LevelHeads at h ⊢
  cases hlevel : fieldLevel mapping name with
  | none => simpa only [hlevel] using h
  | some kind => simpa only [hlevel, hmem] using h

/-! ## The board of the placed issues -/

section Board

variable (lowercase : String → String) (mapping : GroupingMapping) (issues : List GroupingIssue)
    (space : Option String)

/-- The placed issues of a tab. -/
def inTab (tab : Option Group) : List Placed :=
  (placedIssues lowercase issues mapping space).filter fun p => keyOf p.tab == keyOf tab

/-- The placed issues of a column of a tab. -/
def inColumn (tab column : Option Group) : List Placed :=
  (inTab lowercase mapping issues space tab).filter fun p => keyOf p.column == keyOf column

end Board

variable {tab column : Option Group}

theorem mem_configured {t : LinearTab} : t ∈ configured lowercase issues mapping space ↔
    ∃ tab ∈ levelGroups (fieldLevel mapping "tab")
      ((placedIssues lowercase issues mapping space).filterMap Placed.tab),
      t = tabOf mapping (placedIssues lowercase issues mapping space) tab := by
  simp only [configured, List.mem_map, eq_comm]

theorem mem_groups {g : LinearGroup} :
    g ∈ (tabOf mapping (placedIssues lowercase issues mapping space) tab).groups ↔
    ∃ column ∈ levelGroups (fieldLevel mapping "column")
      ((inTab lowercase mapping issues space tab).filterMap Placed.column),
      g = columnOf (inTab lowercase mapping issues space tab)
        (distinct ((inTab lowercase mapping issues space tab).filterMap Placed.row)) column := by
  simp only [tabOf, inTab, List.mem_map, eq_comm]

theorem inTab_reads_column :
    Reads lowercase mapping "column" Placed.column (inTab lowercase mapping issues space tab) :=
  reads_column.filter _

theorem inTab_reads_row :
    Reads lowercase mapping "row" Placed.row (inTab lowercase mapping issues space tab) :=
  reads_row.filter _

/-- The issues of a tab are those of its key. -/
theorem mem_inTab_issue (htab : tab.isSome = (fieldLevel mapping "tab").isSome)
    (issue : GroupingIssue) : issue ∈ (inTab lowercase mapping issues space tab).map Placed.issue ↔
      issue ∈ (shownIssues lowercase issues mapping space).filter fun issue =>
        levelKey lowercase mapping "tab" issue == (tab.map Group.key).getD "" := by
  rw [List.mem_map, List.mem_filter, beq_iff_eq, ← placedIssues_perm.mem_iff, List.mem_map]
  constructor
  · rintro ⟨p, hp, rfl⟩
    obtain ⟨hp, hkey⟩ := (reads_tab.mem_part htab).mp hp
    exact ⟨⟨p, hp, rfl⟩, hkey⟩
  · rintro ⟨⟨p, hp, rfl⟩, hkey⟩
    exact ⟨p, (reads_tab.mem_part htab).mpr ⟨hp, hkey⟩, rfl⟩

/-- The columns of a tab list its issues. -/
theorem inTab_perm :
    ((inTab lowercase mapping issues space tab).map fun p => identifier p.issue).Perm
    ((tabOf mapping (placedIssues lowercase issues mapping space) tab).groups.flatMap
      LinearGroup.issues) := by
  have hreads : Reads lowercase mapping "column" Placed.column
      (inTab lowercase mapping issues space tab) :=
    inTab_reads_column
  have hids := ((levelGroups_perm hreads.isSome).map fun p => identifier p.issue).symm
  rw [List.map_flatMap] at hids
  rwa [tabOf, List.flatMap_map]

theorem mem_inColumn (htab : tab.isSome = (fieldLevel mapping "tab").isSome)
    (hcolumn : column.isSome = (fieldLevel mapping "column").isSome) {p : Placed} :
    p ∈ inColumn lowercase mapping issues space tab column ↔
      p ∈ placedIssues lowercase issues mapping space ∧
      levelKey lowercase mapping "tab" p.issue = (tab.map Group.key).getD "" ∧
      levelKey lowercase mapping "column" p.issue = (column.map Group.key).getD "" := by
  rw [inColumn, inTab_reads_column.mem_part hcolumn, inTab, reads_tab.mem_part htab, and_assoc]

theorem isSome_row {row : Group}
    (h : row ∈ distinct ((inTab lowercase mapping issues space tab).filterMap Placed.row)) :
    (some row).isSome = (fieldLevel mapping "row").isSome := by
  obtain ⟨p, hp, hrow⟩ := List.mem_filterMap.mp (mem_of_mem_distinct h)
  rw [← hrow]
  exact inTab_reads_row.isSome p hp

theorem exists_placed {q : GroupingIssue → Prop} :
    (∃ p ∈ placedIssues lowercase issues mapping space, q p.issue) ↔
      ∃ issue ∈ shownIssues lowercase issues mapping space, q issue := by
  constructor
  · rintro ⟨p, hp, hq⟩
    exact ⟨p.issue, placedIssues_perm.mem_iff.mp (List.mem_map_of_mem hp), hq⟩
  · rintro ⟨issue, hissue, hq⟩
    obtain ⟨p, hp, rfl⟩ := List.mem_map.mp (placedIssues_perm.mem_iff.mpr hissue)
    exact ⟨p, hp, hq⟩

/-- The identifiers of some placed issues, told by what the issues are. -/
theorem mem_ids {ps : List Placed} {q : GroupingIssue → Prop}
    (hps : ∀ p, p ∈ ps ↔ p ∈ placedIssues lowercase issues mapping space ∧ q p.issue)
    {id : String} : (id ∈ ps.map fun p => identifier p.issue) ↔
      ∃ issue ∈ shownIssues lowercase issues mapping space, identifier issue = id ∧ q issue := by
  rw [List.mem_map, ← exists_placed]
  constructor
  · rintro ⟨p, hp, hid⟩
    obtain ⟨hp, hq⟩ := (hps p).mp hp
    exact ⟨p, hp, hid, hq⟩
  · rintro ⟨p, hp, hid, hq⟩
    exact ⟨p, (hps p).mpr ⟨hp, hq⟩, hid⟩

theorem row_keys_cover (hrow : (fieldLevel mapping "row").isSome) (column : Option Group) :
    ∀ p ∈ inColumn lowercase mapping issues space tab column, keyOf p.row ∈
      (distinct ((inTab lowercase mapping issues space tab).filterMap Placed.row)).map fun g =>
        some g.key := by
  intro p hp
  have hp' := List.mem_of_mem_filter hp
  obtain ⟨row, hread⟩ := Option.isSome_iff_exists.mp ((inTab_reads_row.isSome p hp').trans hrow)
  obtain ⟨first, hfirst, hkey⟩ :=
    List.mem_map.mp (key_mem_distinct (List.mem_filterMap.mpr ⟨p, hp', hread⟩))
  exact List.mem_map.mpr ⟨first, hfirst, by simp [keyOf, hread, hkey]⟩

/-- The lanes of a column list its issues. -/
theorem lanes_perm (hrow : (fieldLevel mapping "row").isSome) (column : Option Group) :
    ((columnOf (inTab lowercase mapping issues space tab)
      (distinct ((inTab lowercase mapping issues space tab).filterMap Placed.row))
        column).lanes.flatMap LinearLane.issues).Perm
    ((inColumn lowercase mapping issues space tab column).map fun p => identifier p.issue) := by
  have hnodup : ((distinct ((inTab lowercase mapping issues space tab).filterMap Placed.row)).map
      fun g => some g.key).Nodup := by
    have hmap :=
      (nodup_distinct ((inTab lowercase mapping issues space tab).filterMap Placed.row)).map
      (Option.some_injective String)
    simpa only [List.map_map, Function.comp_def] using hmap
  have hids := (parts_perm hnodup (row_keys_cover hrow column)).map fun p => identifier p.issue
  rw [List.flatMap_map, List.map_flatMap] at hids
  rwa [columnOf, List.flatMap_map]

/-- A configured board partitions the issues of its space. -/
theorem configured_partitions :
    Partitions lowercase mapping (shownIssues lowercase issues mapping space)
    (configured lowercase issues mapping space) where
  once := by
    have hreads : Reads lowercase mapping "tab" Placed.tab
        (placedIssues lowercase issues mapping space) := reads_tab
    have hids := (levelGroups_perm hreads.isSome).map fun p => identifier p.issue
    have hshown :
        ((placedIssues lowercase issues mapping space).map fun p => identifier p.issue).Perm
        ((shownIssues lowercase issues mapping space).map identifier) := by
      simpa only [List.map_map, Function.comp_def] using placedIssues_perm.map identifier
    rw [List.map_flatMap] at hids
    rw [configured, List.flatMap_map]
    exact (List.Perm.flatMap_left _ fun tab _ => inTab_perm.symm).trans (hids.trans hshown)
  column := by
    intro t ht g hg id
    obtain ⟨tab, htab, rfl⟩ := mem_configured.mp ht
    obtain ⟨column, hcolumn, rfl⟩ := mem_groups.mp hg
    exact mem_ids fun p => mem_inColumn (isSome_of_mem_levelGroups htab)
      (isSome_of_mem_levelGroups hcolumn)
  laned := by
    intro hrow t ht g hg
    obtain ⟨tab, htab, rfl⟩ := mem_configured.mp ht
    obtain ⟨column, hcolumn, rfl⟩ := mem_groups.mp hg
    exact lanes_perm hrow column
  lane := by
    intro t ht g hg l hl id
    obtain ⟨tab, htab, rfl⟩ := mem_configured.mp ht
    obtain ⟨column, hcolumn, rfl⟩ := mem_groups.mp hg
    obtain ⟨row, hrow, rfl⟩ := List.mem_map.mp hl
    have hreads : Reads lowercase mapping "row" Placed.row
        (inColumn lowercase mapping issues space tab column) :=
      inTab_reads_row.filter _
    refine mem_ids fun p => (hreads.mem_part (isSome_row hrow)).trans ?_
    rw [mem_inColumn (isSome_of_mem_levelGroups htab) (isSome_of_mem_levelGroups hcolumn),
      and_assoc, and_assoc]
    rfl
  tabs := by
    have hreads : Reads lowercase mapping "tab" Placed.tab
        (placedIssues lowercase issues mapping space) := reads_tab
    refine LevelHeads.congr ?_ fun issue => placedIssues_perm.mem_iff
    rw [configured, List.map_map]
    exact hreads.heads
  columns := by
    intro t ht
    obtain ⟨tab, htab, rfl⟩ := mem_configured.mp ht
    refine LevelHeads.congr ?_ (mem_inTab_issue (isSome_of_mem_levelGroups htab))
    rw [tabOf, List.map_map]
    exact inTab_reads_column.heads
  lanes := by
    intro t ht g hg
    obtain ⟨tab, htab, rfl⟩ := mem_configured.mp ht
    obtain ⟨column, hcolumn, rfl⟩ := mem_groups.mp hg
    refine LevelHeads.congr ?_ (mem_inTab_issue (isSome_of_mem_levelGroups htab))
    rw [columnOf, List.map_map]
    exact inTab_reads_row.row_heads
  across := by
    intro t ht g hg g' hg'
    obtain ⟨tab, htab, rfl⟩ := mem_configured.mp ht
    obtain ⟨column, -, rfl⟩ := mem_groups.mp hg
    obtain ⟨column', -, rfl⟩ := mem_groups.mp hg'
    simp only [columnOf, List.map_map, Function.comp_def]
    rfl

/-! ## The order of the input -/

theorem placedIssues_eq_of_perm {issues issues' : List GroupingIssue} (hperm : issues.Perm issues')
    (hids : (issues.map GroupingIssue.id).Nodup) :
    placedIssues lowercase issues mapping space = placedIssues lowercase issues' mapping space := by
  have hsorted (subTicket : Bool) :
      (issues.insertionSort fun a b => issueOrder subTicket a ≤ issueOrder subTicket b) =
        issues'.insertionSort fun a b => issueOrder subTicket a ≤ issueOrder subTicket b := by
    apply insertionSort_eq_of_perm hperm
    intro a ha b hb hkey
    exact List.inj_on_of_nodup_map hids ha hb (congrArg (fun o => (ofLex o).2) hkey)
  unfold placedIssues
  dsimp only
  rw [hsorted]

theorem configured_eq_of_perm {issues issues' : List GroupingIssue} (hperm : issues.Perm issues')
    (hids : (issues.map GroupingIssue.id).Nodup) :
    configured lowercase issues mapping space = configured lowercase issues' mapping space := by
  unfold configured
  rw [placedIssues_eq_of_perm hperm hids]

/-- Configured grouping is a partition, whatever order the issues come in. -/
theorem configured_grouping_partitions (lowercase : String → String) (mapping : GroupingMapping)
    (space : Option String) (issues : List GroupingIssue)
    (hids : (issues.map GroupingIssue.id).Nodup) (hdisplay : (issues.map identifier).Nodup) :
    Partitions lowercase mapping (shownIssues lowercase issues mapping space)
      (groupBoard lowercase issues (.configured mapping space)) ∧
    ((groupBoard lowercase issues (.configured mapping space)).flatMap fun t =>
      t.groups.flatMap LinearGroup.issues).Nodup ∧
    ∀ issues', issues.Perm issues' →
      groupBoard lowercase issues' (.configured mapping space) = groupBoard lowercase issues
        (.configured mapping space) := by
  have hparts : Partitions lowercase mapping (shownIssues lowercase issues mapping space)
      (groupBoard lowercase issues (.configured mapping space)) := configured_partitions
  refine ⟨hparts, ?_, fun issues' hperm => (configured_eq_of_perm hperm hids).symm⟩
  exact hparts.once.nodup_iff.mpr (hdisplay.sublist (List.filter_sublist.map identifier))

/-- Two issues of one team, one of them without an assignee. -/
def twoIssues : List GroupingIssue :=
  [ { id := "i2", identifier := "X-10",
      state := some { id := "s1", name := "Todo", kind := "unstarted" },
      team := none, project := none, projectMilestone := none, cycle := none, assignee :=
      none, priority := none, parent := none, labels := [] },
    { id := "i1", identifier := "X-9",
      state := some { id := "s1", name := "Todo", kind := "unstarted" },
      team := none, project := none, projectMilestone := none, cycle := none,
      assignee := some { id := "a1", name := "Ada" }, priority := none, parent :=
    none, labels := [] } ]

def stateByAssignee : GroupingMapping :=
  { levels := [("column", "state"), ("row", "assignee")], filter := [] }

theorem configured_grouping_partitions_two :
    Partitions String.toLower stateByAssignee
      (shownIssues String.toLower twoIssues stateByAssignee none)
      (groupBoard String.toLower twoIssues (.configured stateByAssignee none)) ∧
    ((groupBoard String.toLower twoIssues (.configured stateByAssignee none)).flatMap fun t =>
      t.groups.flatMap LinearGroup.issues).Nodup ∧
    ∀ issues', twoIssues.Perm issues' →
      groupBoard String.toLower issues' (.configured stateByAssignee none) =
      groupBoard String.toLower twoIssues (.configured stateByAssignee none) :=
  configured_grouping_partitions String.toLower stateByAssignee none twoIssues (by decide)
    (by decide)

end HerdrBoard.Grouping
