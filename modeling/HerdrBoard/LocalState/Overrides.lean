import HerdrBoard.LocalState.Store
import HerdrBoard.LocalState.Validation
import HerdrBoard.Lib.OrderedMap
import HerdrBoard.Lib.Sorting
import Mathlib.Data.List.Pairwise

/-!
# The rows of the grouping table

What each statement leaves of the overrides in their order, and of the global mapping.
-/

open Lib HerdrBoard.Core

namespace HerdrBoard.LocalState

variable {db t : LinearDb} {space : Option String} {mapping : GroupingMapping} {r : GroupingRow}

/-! ## Rows by space and by position -/

/-- Two rows may stand in one table. -/
def Apart (a b : GroupingRow) : Prop :=
  a.space ≠ b.space ∧ (a.space.isSome = true → b.space.isSome = true → a.position ≠ b.position)

instance : Std.Symm Apart :=
  ⟨fun _ _ h => ⟨h.1.symm, fun hb ha => (h.2 ha hb).symm⟩⟩

theorem apart_of_mem {a b : GroupingRow} (ha : a ∈ db.grouping) (hb : b ∈ db.grouping)
    (hne : a ≠ b) : Apart a b :=
  List.Pairwise.forall (R := Apart) db.groupingUnique ha hb hne

theorem eq_of_space_eq {a b : GroupingRow} (ha : a ∈ db.grouping) (hb : b ∈ db.grouping)
    (h : a.space = b.space) : a = b := by
  by_contra hne
  exact (apart_of_mem ha hb hne).1 h

theorem groupingRow?_eq_some :
    db.groupingRow? space = some r ↔ r ∈ db.grouping ∧ r.space = space := by
  constructor
  · intro h
    have hspace := List.find?_some h
    exact ⟨List.mem_of_find?_eq_some h, of_decide_eq_true hspace⟩
  · rintro ⟨hr, hspace⟩
    cases h : db.groupingRow? space with
    | none =>
        have := List.find?_eq_none.mp h r hr
        simp [hspace] at this
    | some r' =>
        have hspace' := List.find?_some h
        rw [eq_of_space_eq (List.mem_of_find?_eq_some h) hr
          ((of_decide_eq_true hspace').trans hspace.symm)]

theorem groupingRow?_eq_none :
    db.groupingRow? space = none ↔ ∀ r ∈ db.grouping, r.space ≠ space := by
  simp [LinearDb.groupingRow?, Table.mem_def]

theorem mem_overrides : r ∈ db.overrides ↔ r ∈ db.grouping ∧ r.space.isSome = true := by
  simp [LinearDb.overrides]

instance : Std.Total byPosition := ⟨fun a b => le_total a.position b.position⟩
instance : IsTrans GroupingRow byPosition := ⟨fun _ _ _ => le_trans⟩

theorem overrides_ascending (db : LinearDb) :
    db.overrides.Pairwise fun a b => a.position < b.position := by
  have hle : db.overrides.Pairwise byPosition := List.pairwise_insertionSort _ _
  have hapart : db.overrides.Pairwise fun a b => a.position ≠ b.position := by
    have hrows : (db.grouping.select fun r => r.space.isSome).Pairwise Apart :=
      List.Pairwise.filter _ db.groupingUnique
    have hsorted : db.overrides.Pairwise Apart :=
      hrows.perm (List.perm_insertionSort _ _).symm fun h => symm_of _ h
    apply hsorted.imp_of_mem
    intro a b ha hb h
    exact h.2 (mem_overrides.mp ha).2 (mem_overrides.mp hb).2
  exact (hle.and hapart).imp fun h => lt_of_le_of_ne h.1 h.2

/-- The overrides are the one list of the rows with a space by ascending position. -/
theorem overrides_eq {rows : List GroupingRow}
    (hasc : rows.Pairwise fun a b => a.position < b.position)
    (hmem : ∀ r, r ∈ rows ↔ r ∈ db.grouping ∧ r.space.isSome = true) : db.overrides = rows := by
  apply eq_of_ascending (overrides_ascending db) hasc
  intro r
  rw [mem_overrides, hmem]

/-- The first entry of a space is its row. -/
theorem find?_overrides (db : LinearDb) (name : String) :
    (db.overrides.map GroupingRow.entry).find? (fun e => e.space == name) =
      (db.groupingRow? (some name)).map GroupingRow.entry := by
  rw [List.find?_map]
  congr 1
  have hspace {r : GroupingRow} (hr : r ∈ db.overrides) : (r.entry.space == name) = true ↔
      r.space = some name := by
    obtain ⟨own, hown⟩ := Option.isSome_iff_exists.mp (mem_overrides.mp hr).2
    simp [GroupingRow.entry, hown]
  cases hrow : db.groupingRow? (some name) with
  | none =>
      apply List.find?_eq_none.mpr
      intro r hr heq
      exact groupingRow?_eq_none.mp hrow r (mem_overrides.mp hr).1 ((hspace hr).mp heq)
  | some row =>
      obtain ⟨hmem, hname⟩ := groupingRow?_eq_some.mp hrow
      have hover : row ∈ db.overrides := mem_overrides.mpr ⟨hmem, by simp [hname]⟩
      cases hfind : db.overrides.find? ((fun e => e.space == name) ∘ GroupingRow.entry) with
      | none => exact absurd ((hspace hover).mpr hname) (List.find?_eq_none.mp hfind row hover)
      | some found =>
          have hfound := List.mem_of_find?_eq_some hfind
          have hpred := List.find?_some hfind
          have hfoundName := (hspace hfound).mp hpred
          rw [eq_of_space_eq (mem_overrides.mp hfound).1 hmem (hfoundName.trans hname.symm)]

/-! ## The upsert of a mapping -/

theorem mem_putGrouping {table : Table GroupingRow} {position : Int} :
    r ∈ putGrouping space position mapping table ↔
      (∃ r₀ ∈ table, (if r₀.space = space then { r₀ with mapping } else r₀) = r) ∨
        ((∀ r₀ ∈ table, r₀.space ≠ space) ∧
          r = { id := table.nextKey, space, position, mapping }) := by
  unfold putGrouping
  by_cases h : table.rows.any (fun r => decide (r.space = space)) = true
  · obtain ⟨r₀, hr₀, hspace⟩ := List.any_eq_true.mp h
    rw [if_pos h, Table.mem_update]
    constructor
    · rintro ⟨r₁, hr₁, heq⟩
      exact .inl ⟨r₁, hr₁, by simpa using heq⟩
    · rintro (⟨r₁, hr₁, heq⟩ | ⟨hnone, -⟩)
      · exact ⟨r₁, hr₁, by simpa using heq⟩
      · exact absurd (of_decide_eq_true hspace) (hnone r₀ hr₀)
  · have hnone : ∀ r₀ ∈ table, r₀.space ≠ space := by
      intro r₀ hr₀ heq
      exact h (List.any_eq_true.mpr ⟨r₀, hr₀, decide_eq_true heq⟩)
    rw [if_neg h, Table.mem_insert]
    constructor
    · rintro (hr | heq)
      · exact .inl ⟨r, hr, if_neg (hnone r hr)⟩
      · exact .inr ⟨hnone, heq⟩
    · rintro (⟨r₁, hr₁, heq⟩ | ⟨-, heq⟩)
      · rw [if_neg (hnone r₁ hr₁)] at heq
        exact .inl (heq ▸ hr₁)
      · exact .inr heq

theorem unique_putGrouping {table : Table GroupingRow} {position : Int}
    (h : GroupingUnique table.rows)
    (hposition : space.isSome = true → ∀ r ∈ table, r.space.isSome = true → r.position ≠ position) :
    GroupingUnique (putGrouping space position mapping table).rows := by
  unfold putGrouping
  split
  · apply List.pairwise_map.mpr
    apply h.imp
    intro a b hab
    have hsame (r : GroupingRow) :
        (if decide (r.space = space) then { r with mapping } else r).space = r.space ∧
        (if decide (r.space = space) then { r with mapping } else r).position = r.position := by
      split <;> simp
    rw [(hsame a).1, (hsame a).2, (hsame b).1, (hsame b).2]
    exact hab
  · rename_i hnone
    apply List.pairwise_append.mpr
    refine ⟨h, List.pairwise_singleton _ _, ?_⟩
    intro a ha b hb
    cases List.mem_singleton.mp hb
    constructor
    · intro heq
      exact hnone (List.any_eq_true.mpr ⟨a, ha, decide_eq_true heq⟩)
    · intro ha' hspace
      exact hposition hspace a ha ha'

theorem lt_nextPosition {table : Table GroupingRow} (hr : r ∈ table)
    (hspace : r.space.isSome = true) : r.position < nextPosition table := by
  have hmem : r.position ∈ (table.select fun r => r.space.isSome).map GroupingRow.position :=
    List.mem_map_of_mem (Table.mem_select.mpr ⟨hr, hspace⟩)
  unfold nextPosition
  cases hmax : ((table.select fun r => r.space.isSome).map GroupingRow.position).max? with
  | none =>
      rw [List.max?_eq_none_iff] at hmax
      rw [hmax] at hmem
      cases hmem
  | some top =>
      have := (List.max?_eq_some_iff.mp hmax).2 _ hmem
      dsimp only
      omega

/-! ## Statements -/

def LinearDb.withGrouping (db : LinearDb) (table : Table GroupingRow)
    (h : GroupingUnique table.rows) : LinearDb :=
  { db with grouping := table, groupingUnique := h }

@[simp] theorem withGrouping_grouping {table : Table GroupingRow} {h : GroupingUnique table.rows} :
    (db.withGrouping table h).grouping = table := rfl

/-- A statement that keeps the indexes unique goes through. -/
theorem execGrouping_run {f : Table GroupingRow → Table GroupingRow}
    (h : GroupingUnique (f db.grouping).rows) :
    execGrouping f db = .ok () (db.withGrouping (f db.grouping) h) := by
  simp [execGrouping, h, LinearDb.withGrouping]

/-- The row of the space has the mapping put for it. -/
theorem groupingRow?_putGrouping (db : LinearDb) {position : Int}
    (ht : t.grouping = putGrouping space position mapping db.grouping) :
    (t.groupingRow? space).map GroupingRow.mapping = some mapping := by
  have hmem (r : GroupingRow) : r ∈ t.grouping ↔
      r ∈ putGrouping space position mapping db.grouping := by rw [ht]
  by_cases hold : ∃ r ∈ db.grouping, r.space = space
  · obtain ⟨r, hr, hspace⟩ := hold
    have hrow : t.groupingRow? space = some { r with mapping } :=
      groupingRow?_eq_some.mpr
        ⟨(hmem _).mpr (mem_putGrouping.mpr (.inl ⟨r, hr, if_pos hspace⟩)), hspace⟩
    rw [hrow]
    rfl
  · have hnone : ∀ r ∈ db.grouping, r.space ≠ space := fun r hr heq => hold ⟨r, hr, heq⟩
    rw [groupingRow?_eq_some.mpr ⟨(hmem _).mpr (mem_putGrouping.mpr (.inr ⟨hnone, rfl⟩)), rfl⟩]
    rfl

/-- A mapping put for one space leaves the row of another. -/
theorem groupingRow?_putOther (db : LinearDb) {position : Int} {other : Option String}
    (hother : other ≠ space) (ht : t.grouping = putGrouping space position mapping db.grouping) :
    t.groupingRow? other = db.groupingRow? other := by
  ext r
  rw [groupingRow?_eq_some, groupingRow?_eq_some, ht, mem_putGrouping]
  constructor
  · rintro ⟨⟨r₀, hr₀, heq⟩ | ⟨-, heq⟩, hr⟩
    · by_cases h : r₀.space = space
      · rw [if_pos h] at heq
        subst heq
        exact absurd (hr.symm.trans h) hother
      · rw [if_neg h] at heq
        exact ⟨heq ▸ hr₀, hr⟩
    · subst heq
      exact absurd hr.symm hother
  · rintro ⟨hr, hspace⟩
    exact ⟨.inl ⟨r, hr, if_neg (hspace ▸ hother)⟩, hspace⟩

/-- A mapping put for the global row leaves the overrides. -/
theorem overrides_putGlobal (db : LinearDb) {position : Int}
    (ht : t.grouping = putGrouping none position mapping db.grouping) :
    t.overrides = db.overrides := by
  apply overrides_eq (overrides_ascending db)
  intro r
  rw [mem_overrides, ht, mem_putGrouping]
  constructor
  · rintro ⟨hr, hspace⟩
    have hne : r.space ≠ none := Option.isSome_iff_ne_none.mp hspace
    exact ⟨.inl ⟨r, hr, if_neg hne⟩, hspace⟩
  · rintro ⟨⟨r₀, hr₀, heq⟩ | ⟨-, heq⟩, hspace⟩
    · by_cases hnone : r₀.space = none
      · rw [if_pos hnone] at heq
        subst heq
        simp [hnone] at hspace
      · rw [if_neg hnone] at heq
        exact ⟨heq ▸ hr₀, hspace⟩
    · subst heq
      simp at hspace

/-- A mapping put for a space that has one takes its place. -/
theorem overrides_putOld (db : LinearDb) {position : Int} {name : String}
    (hold : ∃ r ∈ db.grouping, r.space = some name)
    (ht : t.grouping = putGrouping (some name) position mapping db.grouping) :
    t.overrides = db.overrides.map fun r =>
      if r.space = some name then { r with mapping } else r := by
  apply overrides_eq
  · apply List.pairwise_map.mpr
    apply (overrides_ascending db).imp
    intro a b hab
    by_cases ha : a.space = some name <;> by_cases hb :
        b.space = some name <;> simpa [ha, hb] using hab
  · intro r
    rw [ht, mem_putGrouping, List.mem_map]
    constructor
    · rintro ⟨r₀, hr₀, heq⟩
      obtain ⟨hmem, hspace⟩ := mem_overrides.mp hr₀
      refine ⟨.inl ⟨r₀, hmem, heq⟩, ?_⟩
      rw [← heq]
      by_cases h : r₀.space = some name <;> simp [h, hspace]
    · rintro ⟨⟨r₀, hr₀, heq⟩ | ⟨hnone, -⟩, hspace⟩
      · refine ⟨r₀, mem_overrides.mpr ⟨hr₀, ?_⟩, heq⟩
        rw [← heq] at hspace
        by_cases h : r₀.space = some name
        · simp [h]
        · simpa [h] using hspace
      · obtain ⟨r₀, hr₀, hname⟩ := hold
        exact absurd hname (hnone r₀ hr₀)

/-- A mapping put for a new space goes last. -/
theorem overrides_putNew (db : LinearDb) {name : String}
    (hnew : ∀ r ∈ db.grouping, r.space ≠ some name)
    (ht : t.grouping = putGrouping (some name) (nextPosition db.grouping) mapping db.grouping) :
    t.overrides = db.overrides ++
      [{ id := db.grouping.nextKey, space := some name,
          position := nextPosition db.grouping, mapping }] := by
  apply overrides_eq
  · apply List.pairwise_append.mpr
    refine ⟨overrides_ascending db, List.pairwise_singleton _ _, ?_⟩
    intro a ha b hb
    cases List.mem_singleton.mp hb
    obtain ⟨hmem, hspace⟩ := mem_overrides.mp ha
    exact lt_nextPosition hmem hspace
  · intro r
    rw [ht, mem_putGrouping, List.mem_append, List.mem_singleton, mem_overrides]
    constructor
    · rintro (⟨hr, hspace⟩ | heq)
      · exact ⟨.inl ⟨r, hr, if_neg (hnew r hr)⟩, hspace⟩
      · exact ⟨.inr ⟨hnew, heq⟩, by rw [heq]; rfl⟩
    · rintro ⟨⟨r₀, hr₀, heq⟩ | ⟨-, heq⟩, hspace⟩
      · rw [if_neg (hnew r₀ hr₀)] at heq
        exact .inl ⟨heq ▸ hr₀, hspace⟩
      · exact .inr heq

theorem groupingRow?_delete (db : LinearDb) {name : String} {other : Option String}
    (hother : other ≠ some name)
    (ht : t.grouping = db.grouping.delete fun r => decide (r.space = some name)) :
    t.groupingRow? other = db.groupingRow? other := by
  ext r
  simp only [groupingRow?_eq_some, ht, Table.mem_delete, decide_eq_false_iff_not]
  constructor
  · rintro ⟨⟨hr, -⟩, hspace⟩
    exact ⟨hr, hspace⟩
  · rintro ⟨hr, hspace⟩
    exact ⟨⟨hr, hspace ▸ hother⟩, hspace⟩

/-- Removing a space leaves the order of the rest. -/
theorem overrides_delete (db : LinearDb) {name : String}
    (ht : t.grouping = db.grouping.delete fun r => decide (r.space = some name)) :
    t.overrides = db.overrides.filter fun r => decide (r.space ≠ some name) := by
  apply overrides_eq ((overrides_ascending db).filter _)
  intro r
  simp only [ht, Table.mem_delete, List.mem_filter, mem_overrides, decide_eq_true_eq,
    decide_eq_false_iff_not]
  tauto

end HerdrBoard.LocalState
