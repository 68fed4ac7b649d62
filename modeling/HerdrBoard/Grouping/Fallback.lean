import HerdrBoard.Grouping.Engine

/-!
# The board without a config

No issue is lost between the orders that a view's saved columns, the team's states and the issues
themselves give. -/

open Lib HerdrBoard.Core HerdrBoard.LocalState

namespace HerdrBoard.Grouping

/-! ## Keys in order -/

theorem lookup_isSome_iff {labels : Labels} {k : String} :
    (labels.lookup k).isSome ↔ k ∈ labels.map Prod.fst := by
  induction labels with
  | nil => simp
  | cons pair labels ih =>
      rw [List.lookup_cons]
      cases h : k == pair.1 with
      | true => simp [beq_iff_eq.mp h]
      | false => simp [beq_eq_false_iff_ne.mp h, ih]

@[simp] theorem mem_appearances {pairs : List (String × String)} {seen : Labels} {k : String} :
    k ∈ (appearances pairs seen).map Prod.fst ↔ k ∈ seen.map Prod.fst ∨ k ∈ pairs.map Prod.fst := by
  induction pairs generalizing seen with
  | nil => simp [appearances]
  | cons pair pairs ih =>
      have hstep := @ih (if (seen.lookup pair.1).isSome then seen else seen ++ [pair])
      rw [appearances, List.foldl_cons, ← appearances, hstep, List.map_cons, List.mem_cons]
      by_cases hseen : (seen.lookup pair.1).isSome = true
      · rw [if_pos hseen]
        have hin := lookup_isSome_iff.mp hseen
        constructor
        · rintro (h | h)
          · exact .inl h
          · exact .inr (.inr h)
        · rintro (h | rfl | h)
          · exact .inl h
          · exact .inl hin
          · exact .inr h
      · rw [if_neg hseen, List.map_append, List.mem_append, List.map_singleton,
          List.mem_singleton, or_assoc]

namespace Fallback

variable {v : Fallback} {issues : List GroupingIssue} {states : List WorkflowState}

/-- The labels of all issues have all their keys. -/
theorem mem_labels {grouping : String} {k : String} :
    k ∈ (rowLabels issues states grouping).map Prod.fst ↔
      ∃ issue ∈ issues, k ∈ (viewKeys issue grouping states).map Prod.fst := by
  have hfold (seen : Labels) :
      k ∈ (issues.foldl (fun seen issue => appearances (viewKeys issue grouping states) seen)
      seen).map Prod.fst ↔ k ∈ seen.map Prod.fst ∨
      ∃ issue ∈ issues, k ∈ (viewKeys issue grouping states).map Prod.fst := by
    induction issues generalizing seen with
    | nil => simp
    | cons issue issues ih =>
        rw [List.foldl_cons, ih, mem_appearances, List.exists_mem_cons_iff, or_assoc]
  have hstart := hfold []
  rw [List.map_nil, List.mem_nil_iff, false_or] at hstart
  exact hstart

@[simp] theorem mem_pushNew {order keys : List String} {k : String} :
    k ∈ pushNew order keys ↔ k ∈ order ∨ k ∈ keys := by
  induction keys generalizing order with
  | nil => simp [pushNew]
  | cons key keys ih =>
      have hstep := @ih (if key ∈ order then order else order ++ [key])
      rw [pushNew, List.foldl_cons, ← pushNew, hstep]
      by_cases hin : key ∈ order
      · rw [if_pos hin, List.mem_cons]
        constructor
        · rintro (h | h)
          · exact .inl h
          · exact .inr (.inr h)
        · rintro (h | rfl | h)
          · exact .inl h
          · exact .inl hin
          · exact .inr h
      · simp [hin, or_assoc]

theorem mem_firstSeen {seen keys : List String} {k : String} :
    k ∈ firstSeen seen keys ↔ k ∈ keys ∧ k ∉ seen := by
  induction keys generalizing seen with
  | nil => simp [firstSeen]
  | cons key keys ih =>
      by_cases hin : key ∈ seen
      · rw [firstSeen, if_pos hin, ih, List.mem_cons]
        constructor
        · rintro ⟨h, hk⟩
          exact ⟨.inr h, hk⟩
        · rintro ⟨rfl | h, hk⟩
          · exact absurd hin hk
          · exact ⟨h, hk⟩
      · rw [firstSeen, if_neg hin, List.mem_cons, ih, List.mem_cons, List.mem_cons]
        constructor
        · rintro (rfl | ⟨h, hk⟩)
          · exact ⟨.inl rfl, hin⟩
          · exact ⟨.inr h, fun hs => hk (.inr hs)⟩
        · rintro ⟨rfl | h, hk⟩
          · exact .inl rfl
          · by_cases heq : k = key
            · exact .inl heq
            · exact .inr ⟨h, fun hs => hs.elim heq hk⟩

theorem nodup_firstSeen (seen keys : List String) : (firstSeen seen keys).Nodup := by
  induction keys generalizing seen with
  | nil => exact List.nodup_nil
  | cons key keys ih =>
      unfold firstSeen
      split
      · exact ih seen
      · refine List.nodup_cons.mpr ⟨fun h => ?_, ih _⟩
        exact (mem_firstSeen.mp h).2 (by simp)

/-! ## Columns -/

theorem keys_groups : (v.groups issues states).map LinearGroup.key =
    (firstSeen [] (v.order issues states)).filter fun k => !v.hiddenColumns.contains k := by
  have hkey : LinearGroup.key ∘ v.columnOf issues states = id := rfl
  rw [groups, List.map_map, hkey, List.map_id]

theorem mem_groups {g : LinearGroup} (h : g ∈ v.groups issues states) :
    g = v.columnOf issues states g.key := by
  obtain ⟨key, -, rfl⟩ := List.mem_map.mp h
  rfl

/-- A view key that is not hidden has a column. -/
theorem exists_column {issue : GroupingIssue} (hissue : issue ∈ issues) {k : String}
    (hk : k ∈ (viewKeys issue v.grouping states).map Prod.fst) (hshown : k ∉ v.hiddenColumns) :
    k ∈ (v.groups issues states).map LinearGroup.key := by
  have hlabels : k ∈ (v.columnLabels issues states).map Prod.fst :=
    mem_labels.mpr ⟨issue, hissue, hk⟩
  have horder : k ∈ v.order issues states := mem_pushNew.mpr (.inr hlabels)
  rw [keys_groups, List.mem_filter]
  exact ⟨mem_firstSeen.mpr ⟨horder, List.not_mem_nil⟩, by simpa using hshown⟩

/-- Whether an issue stands in a column: it has the key, and a row of its own that is shown. -/
def Stands (v : Fallback) (states : List WorkflowState) (issue : GroupingIssue) (key : String) :
    Prop :=
  key ∈ (viewKeys issue v.grouping states).map Prod.fst ∧
  ∀ sub, v.subGrouping = some sub → ∃ k ∈ (viewKeys issue sub states).map Prod.fst, k ∉ v.hiddenRows

theorem mem_issues_columnOf {key id : String} : id ∈ (v.columnOf issues states key).issues ↔
    ∃ issue ∈ issues, identifier issue = id ∧ v.Stands states issue key := by
  simp only [columnOf, List.mem_map, List.mem_filter, Stands]
  constructor
  · rintro ⟨m, ⟨⟨⟨issue, hissue, rfl⟩, hkey⟩, hrows⟩, rfl⟩
    refine ⟨issue, hissue, rfl, by simpa [member] using hkey, ?_⟩
    intro sub hsub
    simpa [member, hsub] using hrows
  · rintro ⟨issue, hissue, rfl, hkey, hrows⟩
    refine ⟨v.member states issue, ⟨⟨⟨issue, hissue, rfl⟩, by simpa [member] using hkey⟩, ?_⟩, rfl⟩
    cases hsub : v.subGrouping with
    | none => simp [member, hsub]
    | some sub => simpa [member, hsub] using hrows sub hsub

/-! ## Lanes -/

theorem mem_lanes {sub : String} (hsub : v.subGrouping = some sub) {k : String} :
    k ∈ ((v.lanes issues states).getD []) → k ∉ v.hiddenRows := by
  intro hk
  simp only [lanes, hsub, Option.map_some, Option.getD_some, List.mem_filter] at hk
  simpa using hk.2

theorem mem_lanes_of_key {sub : String} (hsub : v.subGrouping = some sub) {issue : GroupingIssue}
    (hissue : issue ∈ issues)
    {k : String} (hk : k ∈ (viewKeys issue sub states).map Prod.fst) (hshown : k ∉ v.hiddenRows) :
    k ∈ (v.lanes issues states).getD [] := by
  have hlabels : k ∈ (rowLabels issues states sub).map Prod.fst :=
    mem_labels.mpr ⟨issue, hissue, hk⟩
  simp only [lanes, hsub, Option.map_some, Option.getD_some, List.mem_filter, mem_pushNew]
  exact ⟨.inr hlabels, by simpa using hshown⟩

/-- The members of a lane are those of the column that have its key. -/
theorem mem_issues_laneOf {here : List Member} {row id : String} :
    id ∈ (v.laneOf issues states here row).issues ↔
      ∃ m ∈ here, row ∈ m.rows.getD [] ∧ m.id = id := by
  simp [laneOf, and_assoc]

/-- The issues of a column are those of its lanes. -/
theorem mem_issues_iff_lane {sub : String} (hsub : v.subGrouping = some sub) {key id : String} :
    id ∈ (v.columnOf issues states key).issues ↔
      ∃ l ∈ (v.columnOf issues states key).lanes, id ∈ l.issues := by
  rw [mem_issues_columnOf]
  constructor
  · rintro ⟨issue, hissue, hid, hkey, hrows⟩
    obtain ⟨k, hk, hshown⟩ := hrows sub hsub
    refine ⟨_, List.mem_map_of_mem (mem_lanes_of_key hsub hissue hk hshown),
      mem_issues_laneOf.mpr ?_⟩
    refine ⟨v.member states issue, List.mem_filter.mpr ⟨List.mem_map_of_mem hissue, ?_⟩, ?_, hid⟩
    · simpa [member] using hkey
    · simpa [member, hsub] using hk
  · rintro ⟨l, hl, hid⟩
    obtain ⟨k, hk, rfl⟩ := List.mem_map.mp hl
    obtain ⟨m, hm, hrow, rfl⟩ := mem_issues_laneOf.mp hid
    obtain ⟨hm, hkey⟩ := List.mem_filter.mp hm
    obtain ⟨issue, hissue, rfl⟩ := List.mem_map.mp hm
    refine ⟨issue, hissue, rfl, by simpa [member] using hkey, ?_⟩
    intro sub' hsub'
    obtain rfl : sub = sub' := Option.some.inj (hsub.symm.trans hsub')
    exact ⟨k, by simpa [member, hsub] using hrow, mem_lanes hsub hk⟩

end Fallback

/-! ## The board -/

/-- The grouping of a board without a config. -/
def unconfigured (view : Option ViewPreferences) (states : List WorkflowState) : BoardGrouping :=
  match view with
  | some view => .view view states
  | none => .team states

theorem groupBoard_unconfigured (lowercase : String → String) (issues : List GroupingIssue)
    (view : Option ViewPreferences) (states : List WorkflowState) :
    groupBoard lowercase issues (unconfigured view states) = fallback issues view states := by
  cases view <;> rfl

/-- Every issue has a column key under every view grouping. -/
theorem viewKeys_ne_nil (issue : GroupingIssue) (grouping : String) (states : List WorkflowState) :
    viewKeys issue grouping states ≠ [] := by
  unfold viewKeys
  split
  · split <;> simp
  · simp
  · split
    · simp
    · next keys hkeys => exact hkeys
  · split <;> simp
  · simp

/-- A board of one tab that lists every issue where the view puts it. -/
structure LosesNothing (v : Fallback) (states : List WorkflowState) (issues : List GroupingIssue)
    (groups : List LinearGroup) : Prop where
  keys : (groups.map LinearGroup.key).Nodup
  lists : ∀ g ∈ groups, ∀ issue ∈ issues, identifier issue ∈ g.issues ↔ v.Stands states issue g.key
  /-- Nothing else is listed, and nothing twice. -/
  only : ∀ g ∈ groups, g.issues.Nodup ∧ ∀ id ∈ g.issues, ∃ issue ∈ issues, identifier issue = id
  stands : ∀ issue ∈ issues, viewKeys issue v.grouping states ≠ [] ∧
    ∀ sub, v.subGrouping = some sub → viewKeys issue sub states ≠ []
  column : ∀ issue ∈ issues, ∀ k ∈ (viewKeys issue v.grouping states).map Prod.fst,
    k ∉ v.hiddenColumns → ∃ g ∈ groups, g.key = k
  hidden : ∀ g ∈ groups, g.key ∉ v.hiddenColumns
  lanes : v.subGrouping.isSome → ∀ g ∈ groups,
    (∀ id, id ∈ g.issues ↔ ∃ l ∈ g.lanes, id ∈ l.issues) ∧ ∀ l ∈ g.lanes, l.key ∉ v.hiddenRows

theorem groups_lose_nothing {v : Fallback} {states : List WorkflowState}
    {issues : List GroupingIssue} (hdisplay : (issues.map identifier).Nodup) :
    LosesNothing v states issues (v.groups issues states) where
  keys := by
    rw [Fallback.keys_groups]
    exact (Fallback.nodup_firstSeen _ _).filter _
  lists := by
    intro g hg issue hissue
    rw [Fallback.mem_groups hg, Fallback.mem_issues_columnOf]
    constructor
    · rintro ⟨other, hother, hid, hstands⟩
      obtain rfl := List.inj_on_of_nodup_map hdisplay hother hissue hid
      exact hstands
    · intro hstands
      exact ⟨issue, hissue, rfl, hstands⟩
  only := by
    intro g hg
    rw [Fallback.mem_groups hg]
    refine ⟨?_, fun id hid => ?_⟩
    · have hids : ((issues.map (v.member states)).map Member.id).Nodup := by
        rw [List.map_map]
        exact hdisplay
      exact hids.sublist ((List.filter_sublist.trans List.filter_sublist).map Member.id)
    · obtain ⟨issue, hissue, heq, -⟩ := Fallback.mem_issues_columnOf.mp hid
      exact ⟨issue, hissue, heq⟩
  stands := by
    intro issue _
    exact ⟨viewKeys_ne_nil issue v.grouping states, fun sub _ => viewKeys_ne_nil issue sub states⟩
  column := by
    intro issue hissue k hk hshown
    exact List.mem_map.mp (Fallback.exists_column hissue hk hshown)
  hidden := by
    intro g hg
    have hkey := List.mem_map_of_mem (f := LinearGroup.key) hg
    rw [Fallback.keys_groups, List.mem_filter] at hkey
    simpa using hkey.2
  lanes := by
    intro hlanes g hg
    obtain ⟨sub, hsub⟩ := Option.isSome_iff_exists.mp hlanes
    rw [Fallback.mem_groups hg]
    refine ⟨fun id => Fallback.mem_issues_iff_lane hsub, fun l hl => ?_⟩
    obtain ⟨k, hk, rfl⟩ := List.mem_map.mp hl
    exact Fallback.mem_lanes hsub hk

/-- Fallback grouping loses no issue: each has a column, and with lanes a row, unless the view hides
all of its own. -/
theorem fallback_grouping_loses_nothing (lowercase : String → String) (issues : List GroupingIssue)
    (view : Option ViewPreferences) (states : List WorkflowState)
    (hdisplay : (issues.map identifier).Nodup) :
    ∃ groups, groupBoard lowercase issues (unconfigured view states) =
        [{ key := "", label := DEFAULT_TAB, groups }] ∧
      LosesNothing (fallbackOf view) states issues groups :=
  ⟨_, groupBoard_unconfigured lowercase issues view states, groups_lose_nothing hdisplay⟩

/-- An issue of two labels, on a view that groups by label with a lane for each priority. -/
def labelledIssue : GroupingIssue :=
  { id := "i1", identifier := "X-9", state := none, team := none,
    project := none, projectMilestone := none,
    cycle := none, assignee := none, priority := some 2, parent := none,
    labels := [{ id := "l1", name := "bug", parent := none },
      { id := "l2", name := "ui", parent := none }] }

def labelView : ViewPreferences :=
  { issueGrouping := some "label", issueSubGrouping := some "priority", columnOrderBoard := ["l2"],
    hiddenColumns := ["l1"], hiddenRows := [] }

theorem fallback_grouping_loses_nothing_labels :
    ∃ groups, groupBoard String.toLower [labelledIssue] (unconfigured (some labelView) []) =
        [{ key := "", label := DEFAULT_TAB, groups }] ∧
      LosesNothing (fallbackOf (some labelView)) [] [labelledIssue] groups :=
  fallback_grouping_loses_nothing String.toLower [labelledIssue] (some labelView) [] (by decide)

example : (groupBoard String.toLower [labelledIssue] (unconfigured (some labelView) [])).flatMap
    (fun t => t.groups.map fun g => (g.key, g.issues)) = [("l2", ["X-9"])] := by decide +kernel

end HerdrBoard.Grouping
