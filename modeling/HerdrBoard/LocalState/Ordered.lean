import HerdrBoard.LocalState.Overrides
import HerdrBoard.LocalState.Writes

/-!
# The grouping config as an ordered map

A book holds a global mapping and the spaces' own mappings in their order, all of them acceptable.
Every change of the stored config is the change of the book it asks for, or is refused and leaves
the store as it was. -/

open Lib HerdrBoard.Core

namespace HerdrBoard.LocalState

variable {db t : LinearDb}

/-! ## Books -/

structure GroupingBook where
  global : GroupingMapping
  spaces : OrderedMap String GroupingMapping
  globalAccepted : global.Accepted
  spacesAccepted : ∀ e ∈ spaces.entries, textOk e.1 = true ∧ e.2.Accepted

namespace GroupingBook

def toConfig (b : GroupingBook) : GroupingConfig where
  global := b.global
  spaces := b.spaces.entries.map fun e => { space := e.1, mapping := e.2 }

def ofConfig (c : GroupingConfig) (h : c.Accepted) : GroupingBook where
  global := c.global
  spaces :=
    { entries := c.spaces.map fun e => (e.space, e.mapping)
      distinct := by rw [List.map_map]; exact h.distinct }
  globalAccepted := h.global
  spacesAccepted := by
    intro e he
    obtain ⟨entry, hentry, rfl⟩ := List.mem_map.mp he
    exact h.spaces entry hentry

theorem toConfig_ofConfig {c : GroupingConfig} (h : c.Accepted) : (ofConfig c h).toConfig = c := by
  simp only [toConfig, ofConfig, List.map_map]
  exact congrArg (fun spaces => { c with spaces }) (List.map_id c.spaces)

theorem ofConfig_toConfig {b : GroupingBook} (h : b.toConfig.Accepted) :
    ofConfig b.toConfig h = b := by
  obtain ⟨global, spaces, hglobal, hspaces⟩ := b
  have hentries :
      (spaces.entries.map fun e => ({ space := e.1, mapping := e.2 } : SpaceGrouping)).map
      (fun e => (e.space, e.mapping)) = spaces.entries := by
    rw [List.map_map]
    exact List.map_id _
  simp only [ofConfig, toConfig, GroupingBook.mk.injEq, true_and]
  exact OrderedMap.ext hentries

theorem toConfig_accepted (b : GroupingBook) : b.toConfig.Accepted := by
  constructor
  · exact b.globalAccepted
  · simp only [toConfig, List.map_map]
    exact b.spaces.distinct
  · intro e he
    obtain ⟨entry, hentry, rfl⟩ := List.mem_map.mp he
    exact b.spacesAccepted entry hentry

/-- The own mappings of a book that may be missing. -/
def ownOf (b : Option GroupingBook) : OrderedMap String GroupingMapping :=
  (b.map spaces).getD .empty

theorem ownOf_accepted (b : Option GroupingBook) :
    ∀ e ∈ (ownOf b).entries, textOk e.1 = true ∧ e.2.Accepted := by
  cases b with
  | none => simp [ownOf]
  | some b => exact b.spacesAccepted

def setGlobal (b : Option GroupingBook) (m : GroupingMapping) (h : m.Accepted) : GroupingBook where
  global := m
  spaces := ownOf b
  globalAccepted := h
  spacesAccepted := ownOf_accepted b

theorem mem_put {b : GroupingBook} {space : String} {m : GroupingMapping}
    {e : String × GroupingMapping}
    (he : e ∈ (b.spaces.put space m).entries) : e ∈ b.spaces.entries ∨ e = (space, m) := by
  by_cases h : space ∈ b.spaces.keys
  · rw [OrderedMap.entries_put_of_mem h] at he
    obtain ⟨e₀, he₀, rfl⟩ := List.mem_map.mp he
    by_cases heq : e₀.1 = space
    · exact .inr (by simp [heq])
    · exact .inl (by simpa [heq] using he₀)
  · rw [OrderedMap.entries_put_of_not_mem h] at he
    simpa using he

def setSpace (b : GroupingBook) (space : String) (m : GroupingMapping)
    (h : textOk space = true ∧ m.Accepted) : GroupingBook where
  global := b.global
  spaces := b.spaces.put space m
  globalAccepted := b.globalAccepted
  spacesAccepted := by
    intro e he
    rcases mem_put he with he | rfl
    · exact b.spacesAccepted e he
    · exact h

def removeSpace (b : GroupingBook) (space : String) : GroupingBook where
  global := b.global
  spaces := b.spaces.erase space
  globalAccepted := b.globalAccepted
  spacesAccepted := fun e he => b.spacesAccepted e (List.mem_of_mem_filter he)

end GroupingBook

/-! ## Changes -/

instance (m : GroupingMapping) : Decidable m.Accepted :=
  match h : m.validateAs "" with
  | .ok () => .isTrue h
  | .error _ => .isFalse fun h' => by rw [GroupingMapping.Accepted, h] at h'; cases h'

instance (c : GroupingConfig) : Decidable c.Accepted :=
  decidable_of_iff (c.global.Accepted ∧ (c.spaces.map SpaceGrouping.space).Nodup ∧
      ∀ e ∈ c.spaces, textOk e.space = true ∧ e.mapping.Accepted)
    ⟨fun h => ⟨h.1, h.2.1, h.2.2⟩, fun h => ⟨h.global, h.distinct, h.spaces⟩⟩

/-- A change of the config, for whoever holds it. -/
inductive GroupingChange where
  | setGlobal (mapping : GroupingMapping)
  | setSpace (space : String) (mapping : GroupingMapping)
  | removeSpace (space : String)
  | replace (config : GroupingConfig)

/-- The book after the change; `none` when the change is refused. -/
def GroupingChange.ask : GroupingChange → Option GroupingBook → Option (Option GroupingBook)
  | .setGlobal m, book =>
      if h : m.Accepted then some (some (GroupingBook.setGlobal book m h)) else none
  | .setSpace space m, some book =>
      if h : textOk space = true ∧ m.Accepted then some (some (book.setSpace space m h)) else none
  | .setSpace _ _, none => none
  | .removeSpace space, book => some (book.map fun b => b.removeSpace space)
  | .replace config, _ =>
      if h : config.Accepted then some (some (GroupingBook.ofConfig config h)) else none

/-! ## What a store holds -/

/-- The pair an override is in a book. -/
def GroupingRow.pair (r : GroupingRow) : String × GroupingMapping := (r.space.getD "", r.mapping)

/-- The grouping rows are the book: the global row, and the overrides by position. -/
def LinearDb.Holds (db : LinearDb) : Option GroupingBook → Prop
  | none => db.grouping.rows = []
  | some book => (db.groupingRow? none).map GroupingRow.mapping = some book.global ∧
      db.overrides.map GroupingRow.pair = book.spaces.entries

/-- The computation makes the change asked for, or fails and leaves the store. -/
def Realises {ε α : Type} (x : EStateM ε LinearDb α) (db : LinearDb) :
    Option (Option GroupingBook) → Prop
  | some book => ∃ a t, x db = .ok a t ∧ t.Holds book
  | none => ∃ e, x db = .error e db

theorem LinearDb.Holds.groupingConfig {book : Option GroupingBook} (h : db.Holds book) :
    db.groupingConfig = book.map GroupingBook.toConfig := by
  cases book with
  | none =>
      have hrows : db.grouping.rows = [] := h
      simp [LinearDb.groupingConfig, LinearDb.groupingRow?, hrows]
  | some book =>
      obtain ⟨hglobal, hspaces⟩ := h
      cases hrow : db.groupingRow? none with
      | none => simp [hrow] at hglobal
      | some row =>
          simp only [hrow, Option.map_some, Option.some.injEq] at hglobal
          simp only [LinearDb.groupingConfig, hrow, Option.map_some, GroupingBook.toConfig,
            ← hspaces, List.map_map, hglobal]
          rfl

theorem LinearDb.Holds.overrides {book : Option GroupingBook} (h : db.Holds book) :
    db.overrides.map GroupingRow.pair = (GroupingBook.ownOf book).entries := by
  cases book with
  | none =>
      have hrows : db.grouping.rows = [] := h
      simp [LinearDb.overrides, Table.select, hrows, GroupingBook.ownOf]
  | some book => exact h.2

section Realises

variable {ε α : Type} {x : EStateM ε LinearDb α} {asked : Option (Option GroupingBook)}

theorem realises_ok {book : Option GroupingBook} {a : α} (hask : asked = some book)
    (hrun : x db = .ok a t) (ht : t.Holds book) : Realises x db asked := by
  rw [hask]
  exact ⟨a, t, hrun, ht⟩

theorem realises_error {e : ε} (hask : asked = none) (hrun : x db = .error e db) :
    Realises x db asked := by
  rw [hask]
  exact ⟨e, hrun⟩

end Realises

/-! ## The store's own statements -/

theorem setGroupingGlobal_realises {book : Option GroupingBook} (h : db.Holds book)
    (m : GroupingMapping) :
    Realises (setGroupingGlobal m) db ((GroupingChange.setGlobal m).ask book) := by
  by_cases hm : m.Accepted
  · have hunique : GroupingUnique (putGrouping none 0 m db.grouping).rows :=
      unique_putGrouping db.groupingUnique (by simp)
    have hrun : setGroupingGlobal m db = .ok () (db.withGrouping _ hunique) := by
      rw [setGroupingGlobal, fromExcept_bind_ok ((m.validateAs_accepts _).mpr hm)]
      exact execGrouping_run hunique
    apply realises_ok (dif_pos hm) hrun
    constructor
    · rw [groupingRow?_putGrouping db rfl]
      rfl
    · rw [overrides_putGlobal db rfl]
      exact h.overrides
  · obtain ⟨e, he⟩ := error_of_not_ok (mt (m.validateAs_accepts "the global mapping").mp hm)
    exact realises_error (dif_neg hm) (fromExcept_bind_error he)

theorem LinearDb.Holds.mem_keys {book : GroupingBook} (h : db.Holds (some book)) {space : String} :
    space ∈ book.spaces.keys ↔ ∃ r ∈ db.grouping, r.space = some space := by
  rw [OrderedMap.keys, ← h.2, List.map_map, List.mem_map]
  constructor
  · rintro ⟨r, hr, rfl⟩
    obtain ⟨hmem, hspace⟩ := mem_overrides.mp hr
    obtain ⟨name, hname⟩ := Option.isSome_iff_exists.mp hspace
    exact ⟨r, hmem, by simp [GroupingRow.pair, hname]⟩
  · rintro ⟨r, hr, hspace⟩
    exact ⟨r, mem_overrides.mpr ⟨hr, by simp [hspace]⟩, by simp [GroupingRow.pair, hspace]⟩

/-- The upsert of an override is the put of its pair. -/
theorem overrides_putSpace {book : GroupingBook} (h : db.Holds (some book)) {space : String}
    {m : GroupingMapping}
    (ht : t.grouping = putGrouping (some space) (nextPosition db.grouping) m db.grouping) :
    t.overrides.map GroupingRow.pair = (book.spaces.put space m).entries := by
  by_cases hkey : space ∈ book.spaces.keys
  · rw [OrderedMap.entries_put_of_mem hkey, overrides_putOld db (h.mem_keys.mp hkey) ht, ← h.2,
      OrderedMap.revalue, List.map_map, List.map_map]
    apply List.map_congr_left
    intro r hr
    obtain ⟨name, hname⟩ := Option.isSome_iff_exists.mp (mem_overrides.mp hr).2
    by_cases heq : name = space <;> simp [GroupingRow.pair, hname, heq]
  · have hnew : ∀ r ∈ db.grouping, r.space ≠ some space :=
      fun r hr hspace => hkey (h.mem_keys.mpr ⟨r, hr, hspace⟩)
    rw [OrderedMap.entries_put_of_not_mem hkey, overrides_putNew db hnew ht, ← h.2, List.map_append]
    rfl

theorem LinearDb.Holds.global_isNone {book : Option GroupingBook} (h : db.Holds book) :
    (db.groupingRow? none).isNone = book.isNone := by
  cases book with
  | none =>
      have hrows : db.grouping.rows = [] := h
      simp [LinearDb.groupingRow?, hrows]
  | some book =>
      have hglobal := h.1
      cases hrow : db.groupingRow? none with
      | none => simp [hrow] at hglobal
      | some row => rfl

theorem setGroupingSpace_realises {book : Option GroupingBook} (h : db.Holds book) (space : String)
    (m : GroupingMapping) :
    Realises (setGroupingSpace space m) db ((GroupingChange.setSpace space m).ask book) := by
  by_cases hok : textOk space = true ∧ m.Accepted
  · have hchecks (f : Unit → LinearM Unit) :
        (do fromExcept (validateSpaceName space); fromExcept (m.validateAs (spaceWhose space));
            f ()) db = f () db := by
      rw [fromExcept_bind_ok (validateSpaceName_accepts.mpr hok.1),
        fromExcept_bind_ok ((m.validateAs_accepts _).mpr hok.2)]
    have hglobal := h.global_isNone
    cases book with
    | none =>
        apply realises_error rfl
        rw [setGroupingSpace, hchecks fun _ => _]
        exact transaction_error (refuse_bind_error (s := db) (by simp [hglobal]))
    | some book =>
        have hunique : GroupingUnique
            (putGrouping (some space) (nextPosition db.grouping) m db.grouping).rows := by
          apply unique_putGrouping db.groupingUnique
          intro _ r hr hspace
          exact (lt_nextPosition hr hspace).ne
        have hrun : setGroupingSpace space m db = .ok () (db.withGrouping _ hunique) := by
          rw [setGroupingSpace, hchecks fun _ => _]
          apply transaction_ok.mpr
          apply bind_ok.mpr
          refine ⟨db, db, rfl, bind_ok.mpr ⟨(), db, ?_, execGrouping_run hunique⟩⟩
          exact refuse_run (by simp [hglobal]) _
        apply realises_ok (dif_pos hok) hrun
        constructor
        · rw [groupingRow?_putOther db (by simp) rfl]
          exact h.1
        · exact overrides_putSpace h rfl
  · have hask : (GroupingChange.setSpace space m).ask book = none := by
      cases book with
      | none => rfl
      | some book => exact dif_neg hok
    by_cases hspace : textOk space = true
    · obtain ⟨e, he⟩ := error_of_not_ok
        (mt (m.validateAs_accepts (spaceWhose space)).mp fun hm => hok ⟨hspace, hm⟩)
      apply realises_error (e := e) hask
      rw [setGroupingSpace, fromExcept_bind_ok (validateSpaceName_accepts.mpr hspace),
        fromExcept_bind_error he]
    · obtain ⟨e, he⟩ := error_of_not_ok (mt validateSpaceName_accepts.mp hspace)
      exact realises_error hask (fromExcept_bind_error he)

theorem removeGroupingSpace_realises {book : Option GroupingBook} (h : db.Holds book)
    (space : String) :
    Realises (removeGroupingSpace space) db ((GroupingChange.removeSpace space).ask book) := by
  have hunique : GroupingUnique (db.grouping.delete fun r => decide (r.space = some space)).rows :=
    List.Pairwise.filter _ db.groupingUnique
  have hrun : removeGroupingSpace space db =
      .ok (db.grouping.rows.any fun r => decide (r.space = some space))
        (db.withGrouping _ hunique) := by
    apply bind_ok.mpr
    exact ⟨db, db, rfl, bind_ok.mpr ⟨(), _, execGrouping_run hunique, rfl⟩⟩
  apply realises_ok rfl hrun
  cases book with
  | none =>
      have hrows : db.grouping.rows = [] := h
      simp [LinearDb.Holds, Table.delete, hrows]
  | some book =>
      constructor
      · rw [groupingRow?_delete db (by simp) rfl]
        exact h.1
      · rw [overrides_delete db rfl]
        simp only [GroupingBook.removeSpace, OrderedMap.entries_erase, ← h.2, List.filter_map]
        congr 1
        apply List.filter_congr
        intro r hr
        obtain ⟨name, hname⟩ := Option.isSome_iff_exists.mp (mem_overrides.mp hr).2
        simp [GroupingRow.pair, hname]

/-- The overrides of a config take consecutive positions behind the rows already there. -/
theorem insertOverrides_run (db : LinearDb) {entries : List SpaceGrouping} (position : Nat)
    (hdistinct : (entries.map SpaceGrouping.space).Nodup)
    (hfresh : ∀ e ∈ entries, ∀ r ∈ db.grouping, r.space ≠ some e.space)
    (hbefore : ∀ r ∈ db.grouping, r.space.isSome = true → r.position < position) :
    ∃ t rows, insertOverrides position entries db = .ok () t ∧
      t.grouping.rows = db.grouping.rows ++ rows ∧
      rows.map GroupingRow.pair = entries.map (fun e => (e.space, e.mapping)) ∧
      (∀ r ∈ rows, r.space.isSome = true ∧ (position : Int) ≤ r.position) ∧
      rows.Pairwise fun a b => a.position < b.position := by
  induction entries generalizing db position with
  | nil => exact ⟨db, [], rfl, by simp, rfl, by simp, List.Pairwise.nil⟩
  | cons entry entries ih =>
      obtain ⟨hnew, hrest⟩ := List.nodup_cons.mp hdistinct
      let rowAt (id : Int) : GroupingRow :=
        { id, space := some entry.space, position := position, mapping := entry.mapping }
      have hunique : GroupingUnique (db.grouping.insert rowAt fun _ => rfl).rows := by
        apply List.pairwise_append.mpr
        refine ⟨db.groupingUnique, List.pairwise_singleton _ _, ?_⟩
        intro a ha b hb
        cases List.mem_singleton.mp hb
        constructor
        · exact hfresh entry List.mem_cons_self a ha
        · intro hspace _
          exact (hbefore a ha hspace).ne
      have hrows (r : GroupingRow) :
          r ∈ (db.withGrouping _ hunique).grouping ↔
            r ∈ db.grouping ∨ r = rowAt db.grouping.nextKey := by
        rw [withGrouping_grouping, Table.mem_insert]
      obtain ⟨t, rows, ht, happend, hpairs, hspaces, hasc⟩ := ih _ (position + 1) hrest
        (by
          intro e he r hr
          rcases (hrows r).mp hr with hr | rfl
          · exact hfresh e (List.mem_cons_of_mem _ he) r hr
          · intro heq
            exact hnew (List.mem_map.mpr ⟨e, he, (Option.some.inj heq).symm⟩))
        (by
          intro r hr hspace
          rcases (hrows r).mp hr with hr | rfl
          · have := hbefore r hr hspace
            omega
          · simp only [rowAt]
            omega)
      refine ⟨t, rowAt db.grouping.nextKey :: rows, ?_, ?_, ?_, ?_, ?_⟩
      · exact bind_ok.mpr ⟨(), _, execGrouping_run hunique, ht⟩
      · rw [happend, withGrouping_grouping]
        simp [Table.insert]
      · rw [List.map_cons, List.map_cons, hpairs]
        rfl
      · intro r hr
        rcases List.mem_cons.mp hr with rfl | hr
        · exact ⟨rfl, le_refl _⟩
        · have := (hspaces r hr).2
          exact ⟨(hspaces r hr).1, by omega⟩
      · apply List.pairwise_cons.mpr
        refine ⟨fun r hr => ?_, hasc⟩
        have := (hspaces r hr).2
        simp only [rowAt]
        omega

theorem replaceGrouping_realises (book : Option GroupingBook) (c : GroupingConfig) :
    Realises (replaceGrouping c) db ((GroupingChange.replace c).ask book) := by
  by_cases hc : c.Accepted
  · let cleared := db.withGrouping .empty List.Pairwise.nil
    let global : GroupingRow :=
      { id := cleared.grouping.nextKey, space := none, position := 0, mapping := c.global }
    let seeded := cleared.withGrouping
      (cleared.grouping.insert (fun id => { id, space := none, position := 0, mapping := c.global })
      fun _ => rfl) (List.pairwise_singleton _ _)
    have honly : ∀ r ∈ seeded.grouping, r = global := fun r hr => List.mem_singleton.mp hr
    obtain ⟨t, rows, ht, happend, hpairs, hspaces, hasc⟩ := insertOverrides_run seeded 0 hc.distinct
      (fun e _ r hr => by rw [honly r hr]; simp [global])
        (fun r hr hspace => by rw [honly r hr] at hspace; cases hspace)
    have hrun : replaceGrouping c db = .ok () t := by
      rw [replaceGrouping, fromExcept_bind_ok (GroupingConfig.validate_accepts.mpr hc)]
      apply transaction_ok.mpr
      apply bind_ok.mpr
      exact ⟨(), cleared, execGrouping_run _, bind_ok.mpr ⟨(), seeded, execGrouping_run _, ht⟩⟩
    have hmem (r : GroupingRow) : r ∈ t.grouping ↔ r = global ∨ r ∈ rows := by
      rw [Table.mem_def, happend]
      exact List.mem_cons
    apply realises_ok (dif_pos hc) hrun
    constructor
    · rw [groupingRow?_eq_some.mpr ⟨(hmem global).mpr (.inl rfl), rfl⟩]
      rfl
    · have hover : t.overrides = rows := by
        apply overrides_eq hasc
        intro r
        rw [hmem]
        constructor
        · exact fun hr => ⟨.inr hr, (hspaces r hr).1⟩
        · rintro ⟨rfl | hr, hspace⟩
          · cases hspace
          · exact hr
      rw [hover, hpairs]
      rfl
  · obtain ⟨e, he⟩ := error_of_not_ok (mt GroupingConfig.validate_accepts.mp hc)
    exact realises_error (dif_neg hc) (fromExcept_bind_error he)

end HerdrBoard.LocalState
