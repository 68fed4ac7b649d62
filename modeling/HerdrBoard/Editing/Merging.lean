import HerdrBoard.Core.Lemmas.Sites
import HerdrBoard.Harness.Accepted
import HerdrBoard.Lifecycle.Theorems

/-!
# Updates store what was validated

An accepted update writes the row that its validation merged, although the store merges it a
second time. -/

open Lib HerdrBoard.Core HerdrBoard.Daemon HerdrBoard.Lifecycle

namespace HerdrBoard.Editing

variable {config : HarnessConfig} {env : Env} {db db' : Db} {d d' : DaemonState}

/-! ## The two merges of a card -/

/-- A merged card that pi accepts has no permission mode. -/
theorem permission_of_pi {card : Card} (hpi : card.harness = "pi")
    (h : validateCardSettings (capabilitiesFor config) card = .ok ()) :
    card.permissionMode = none := by
  obtain ⟨_, hvalues, -⟩ := except_bind_ok.mp h
  obtain ⟨caps, hcaps, hfits⟩ := fits_of_validate hvalues
  rw [hpi] at hcaps
  cases hcaps
  cases hset : card.permissionMode with
  | none => rfl
  | some p => exact absurd (hfits.permissions p hset) (by simp)

/-- A merged card that claude accepts has an effort that claude knows. -/
theorem effort_of_claude {card : Card} {effort : Effort} (hclaude : card.harness = "claude")
    (heffort : card.effort = some effort)
    (h : validateCardSettings (capabilitiesFor config) card = .ok ()) :
    effort ∈ CLAUDE_EFFORTS := by
  obtain ⟨_, hvalues, -⟩ := except_bind_ok.mp h
  obtain ⟨caps, hcaps, hfits⟩ := fits_of_validate hvalues
  rw [hclaude] at hcaps
  cases hcaps
  refine mem_of_effortsFor (fun m hm => ?_) (fun e he => he) (hfits.efforts effort heffort)
  obtain ⟨id, -, rfl⟩ := List.mem_map.mp hm
  exact fun e he => he

/-- What the store drops on a change of harness, the validation has refused to keep. -/
theorem patchCard_eq_merge {card : Card} {p : CardUpdateParams}
    (h : validateCardSettings (capabilitiesFor config) (mergeCardUpdate card p) = .ok ()) :
    patchCard p card = mergeCardUpdate card p := by
  cases hharness : p.harness with
  | none => simp [patchCard, patchHarness, mergeCardUpdate, hharness]
  | some harness =>
      by_cases hpi : harness = "pi"
      · have hpermission := permission_of_pi (by simp [mergeCardUpdate, hharness, hpi]) h
        have hsame : p.permissionMode.apply none = p.permissionMode.apply card.permissionMode := by
          cases hpatch : p.permissionMode with
          | unchanged => simpa [mergeCardUpdate, hpatch, Patch.apply] using hpermission.symm
          | clear => rfl
          | set value => rfl
        simp [patchCard, patchHarness, mergeCardUpdate, hharness, hpi, hsame]
      · by_cases hdropped :
            harness = "claude" ∧ (card.effort = some .off ∨ card.effort = some .minimal)
        · have hsame : p.effort.apply none = p.effort.apply card.effort := by
            cases hpatch : p.effort with
            | unchanged =>
                have hmerged : (mergeCardUpdate card p).effort = card.effort := by
                  simp [mergeCardUpdate, hpatch, Patch.apply]
                have hclaude : (mergeCardUpdate card p).harness = "claude" := by
                  simp [mergeCardUpdate, hharness, hdropped.1]
                rcases hdropped.2 with heffort | heffort
                · exact absurd (effort_of_claude hclaude (hmerged.trans heffort) h) (by decide)
                · exact absurd (effort_of_claude hclaude (hmerged.trans heffort) h) (by decide)
            | clear => rfl
            | set value => rfl
          simp [patchCard, patchHarness, mergeCardUpdate, hharness, hdropped, hsame]
        · simp [patchCard, patchHarness, mergeCardUpdate, hharness, hpi, hdropped]

/-! ## Stored rows -/

theorem patchCard_id (p : CardUpdateParams) (card : Card) : (patchCard p card).id = card.id := by
  have hharness : (patchHarness card p.harness).id = card.id := by
    unfold patchHarness
    split
    · rfl
    · split
      · rfl
      · split <;> rfl
  exact hharness

/-- One row is rewritten, the others stay. -/
theorem updateCard_stores {p : CardUpdateParams} {card : Card}
    (h : updateCard env.conn p db = .ok card db') :
    ∃ old, db.card? p.id = some old ∧
      card = Card.withSettingsOf (patchCard p old) old env.conn.now ∧
      db'.card? p.id = some card ∧ ∀ id, id ≠ p.id → db'.card? id = db.card? id := by
  simp only [updateCard, bind_ok, requireCard_ok, updateCards_ok] at h
  obtain ⟨old, _, ⟨hold, rfl⟩, _, db₁, ⟨htab, -⟩, hcard, rfl⟩ := h
  obtain ⟨-, hkey⟩ := Table.find?_eq_some.mp hold
  have hsame : (patchCard p old).id = p.id := (patchCard_id p old).trans hkey
  rw [hsame] at hcard htab
  have hfind (id : Int) : db₁.card? id = (db.card? id).map fun r =>
      if r.id == p.id then Card.withSettingsOf (patchCard p old) r env.conn.now else r := by
    rw [Db.card?, congrArg Tables.cards htab, Table.find?_update]
    rfl
  refine ⟨old, hold, ?_, hcard, fun id hne => ?_⟩
  · have hself : (old.id == p.id) = true := beq_iff_eq.mpr hkey
    rw [hfind, hold, Option.map_some, hself] at hcard
    exact (Option.some.inj hcard).symm
  · rw [hfind]
    cases hrow : db.card? id with
    | none => rfl
    | some r =>
        obtain ⟨-, hid⟩ := Table.find?_eq_some.mp hrow
        have hother : (r.id == p.id) = false :=
          beq_eq_false_iff_ne.mpr fun heq => hne (hid.symm.trans heq)
        rw [Option.map_some, hother]
        rfl

/-- A column without its place. -/
def unplaced (c : Column) : Column := { c with position := 0 }

theorem unplaced_eq {c c' : Column} (h : unplaced c = unplaced c') :
    c = { c' with position := c.position } :=
  calc c = { unplaced c with position := c.position } := rfl
    _ = { unplaced c' with position := c.position } := by rw [h]
    _ = { c' with position := c.position } := rfl

/-- A reordering changes places only. -/
theorem reorderColumn_unplaced {id position : Int} {columns : List Column}
    (h : reorderColumn id position db = .ok columns db')
    (k : Int) : (db'.column? k).map unplaced = (db.column? k).map unplaced := by
  simp only [reorderColumn, bind_ok, requireColumn_ok, transaction_ok, get_ok,
    setColumnPositions_ok, pure_ok] at h
  obtain ⟨_, _, ⟨-, rfl⟩, _, _, ⟨_, _, ⟨rfl, rfl⟩, htab⟩, _, _, ⟨rfl, rfl⟩, -, rfl⟩ := h
  have hcolumns := congrArg Tables.columns htab
  have hsame (ids : List Int) :
      ((db.columns.renumber ids).find? k).map unplaced = (db.columns.find? k).map unplaced := by
    have hmap : (db.columns.renumber ids).map unplaced (fun _ => rfl) = db.columns.map unplaced :=
      Table.map_renumber (fun _ _ => rfl) ids
    have hrow := congrArg (fun t => t.find? k) hmap
    exact (Table.find?_map k).symm.trans (hrow.trans (Table.find?_map k))
  rw [Db.column?, hcolumns]
  exact hsame _

/-- One row is rewritten, the others keep everything but their place. -/
theorem updateColumn_stores {p : ColumnUpdateParams} {column : Column}
    (h : updateColumn p db = .ok column db') :
    ∃ old, db.column? p.id = some old ∧ db'.column? p.id = some column ∧
      (p.position = none → column = mergeColumnUpdate old p) ∧
      column = { mergeColumnUpdate old p with position := column.position } ∧
      ∀ id, id ≠ p.id → (db'.column? id).map unplaced = (db.column? id).map unplaced := by
  simp only [updateColumn, bind_ok, requireColumn_ok, validateColumnTargets_ok, rejectDuplicate_ok,
    updateColumns_ok] at h
  obtain ⟨old, _, ⟨hold, rfl⟩, _, _, ⟨-, -, rfl⟩, _, db₁, htab, h⟩ := h
  obtain ⟨-, hkey⟩ := Table.find?_eq_some.mp hold
  have hid : (patchColumn p old).id = p.id := hkey
  rw [hid] at htab h
  have hfind (id : Int) : db₁.column? id = (db.column? id).map fun r =>
      if r.id == p.id then Column.withSettingsOf (patchColumn p old) r else r := by
    rw [Db.column?, congrArg Tables.columns htab, Table.find?_update]
    rfl
  have hself : db₁.column? p.id = some (mergeColumnUpdate old p) := by
    have hthis : (old.id == p.id) = true := beq_iff_eq.mpr hkey
    rw [hfind, hold, Option.map_some, hthis]
    rfl
  have hothers (id : Int) (hne : id ≠ p.id) : db₁.column? id = db.column? id := by
    rw [hfind]
    cases hrow : db.column? id with
    | none => rfl
    | some r =>
        obtain ⟨-, hid⟩ := Table.find?_eq_some.mp hrow
        have hother : (r.id == p.id) = false :=
          beq_eq_false_iff_ne.mpr fun heq => hne (hid.symm.trans heq)
        rw [Option.map_some, hother]
        rfl
  refine ⟨old, hold, ?_⟩
  cases hposition : p.position with
  | none =>
      simp only [hposition, requireColumn_ok] at h
      obtain ⟨hcolumn, rfl⟩ := h
      obtain rfl := Option.some.inj (hself.symm.trans hcolumn)
      exact ⟨hself, fun _ => rfl, rfl, fun id hne => congrArg _ (hothers id hne)⟩
  | some position =>
      simp only [hposition, bind_ok, requireColumn_ok] at h
      obtain ⟨_, db₂, hreorder, hcolumn, rfl⟩ := h
      have hplaces := reorderColumn_unplaced hreorder
      have hrow := hplaces p.id
      rw [hcolumn, hself, Option.map_some, Option.map_some] at hrow
      exact ⟨hcolumn, fun hnone => absurd hnone (by simp), unplaced_eq (Option.some.inj hrow),
        fun id hne => (hplaces id).trans (congrArg _ (hothers id hne))⟩

/-! ## The requests -/

/-- The environment of a daemon that reads its harness configuration. -/
def configured (env : Env) (config : HarnessConfig) : Env :=
  { env with capabilitiesFor := capabilitiesFor config }

/-- What an accepted card update stores: the merged row with a new stamp, and every other
row as it was. -/
theorem cardUpdate_stores {p : CardUpdateParams} {card : Card}
    (h : cardUpdate (configured env config) p d = .ok card d') :
    ∃ old, d.db.card? p.id = some old ∧
      card = { mergeCardUpdate old p with updatedAt := env.conn.now } ∧
      d'.db.card? p.id = some card ∧ ∀ id, id ≠ p.id → d'.db.card? id = d.db.card? id := by
  obtain ⟨db, hrun, rfl⟩ := store_ok.mp h
  simp only [bind_ok, requireCard_ok, fromExcept_ok, mapError_ok, get_ok, refuse_ok] at hrun
  obtain ⟨old, _, ⟨hold, rfl⟩, _, _, ⟨-, rfl⟩, _, _, ⟨rfl, rfl⟩, _, _, ⟨-, rfl⟩, _, _, ⟨hvalid,
    rfl⟩, hupdate⟩ := hrun
  obtain ⟨old', hold', hcard, hstored, hothers⟩ := updateCard_stores hupdate
  obtain rfl := Option.some.inj (hold.symm.trans hold')
  rw [patchCard_eq_merge hvalid] at hcard
  exact ⟨old, hold, hcard, hstored, hothers⟩

/-- What an accepted column update stores: the merged row, in its place or in the named one. -/
theorem columnUpdate_stores {p : ColumnUpdateParams} {column : Column}
    (h : columnUpdate (configured env config) p d = .ok column d') :
    ∃ old, d.db.column? p.id = some old ∧ d'.db.column? p.id = some column ∧
      (p.position = none → column = mergeColumnUpdate old p) ∧
      column = { mergeColumnUpdate old p with position := column.position } ∧
      ∀ id, id ≠ p.id → (d'.db.column? id).map unplaced = (d.db.column? id).map unplaced := by
  obtain ⟨db, hrun, rfl⟩ := store_ok.mp h
  simp only [bind_ok, requireColumn_ok, fromExcept_ok, mapError_ok] at hrun
  obtain ⟨current, _, ⟨hcurrent, rfl⟩, _, _, ⟨-, rfl⟩, hupdate⟩ := hrun
  exact updateColumn_stores hupdate

/-- An accepted update stores the row that was validated. -/
theorem stored_is_validated (env : Env) (config : HarnessConfig) (d d' : DaemonState) :
    (∀ p card, cardUpdate (configured env config) p d = .ok card d' →
      ∃ old, d.db.card? p.id = some old ∧
      card = { mergeCardUpdate old p with updatedAt := env.conn.now } ∧
      d'.db.card? p.id = some card ∧ ∀ id, id ≠ p.id → d'.db.card? id = d.db.card? id) ∧
    (∀ p column, columnUpdate (configured env config) p d = .ok column d' →
      ∃ old, d.db.column? p.id = some old ∧
      d'.db.column? p.id = some column ∧ (p.position = none → column = mergeColumnUpdate old p) ∧
      column = { mergeColumnUpdate old p with position := column.position } ∧
      ∀ id, id ≠ p.id → (d'.db.column? id).map unplaced = (d.db.column? id).map unplaced) :=
  ⟨fun _ _ h => cardUpdate_stores h, fun _ _ h => columnUpdate_stores h⟩

/-- A card of claude and a column. -/
def claudeCard : DaemonState :=
  ((World.start Db.fresh).run oneAtATime
    [ .request permissiveEnv
      (.cardCreate { title := "Task", harness := some "claude", spaceRef := some "w1" }) ]).daemon

/-- No harness beyond the built-in ones. -/
def builtinsOnly : Env := configured permissiveEnv { harness := [], agyModels := none }

/-- The card goes to pi without an effort, and the column gets a timeout and a model. -/
def piUpdate : CardUpdateParams := { id := 1, harness := some "pi", effort := .set .off }

def timeoutUpdate : ColumnUpdateParams :=
  { id := 1, timeoutMinutes := .set 30, modelOverride := .set "opus" }

theorem stored_is_validated_claude :
    (∃ card d', cardUpdate builtinsOnly piUpdate claudeCard = .ok card d' ∧
      ∃ old, claudeCard.db.card? 1 = some old ∧
      card = { mergeCardUpdate old piUpdate with updatedAt := permissiveEnv.conn.now } ∧
      d'.db.card? 1 = some card ∧ ∀ id, id ≠ 1 → d'.db.card? id = claudeCard.db.card? id) ∧
    ∃ column d', columnUpdate builtinsOnly timeoutUpdate claudeCard = .ok column d' ∧
      ∃ old, claudeCard.db.column? 1 = some old ∧ column = mergeColumnUpdate old timeoutUpdate ∧
        d'.db.column? 1 = some column := by
  have hcard : succeeded (cardUpdate builtinsOnly piUpdate claudeCard) = true := by decide +kernel
  have hcolumn : succeeded (columnUpdate builtinsOnly timeoutUpdate claudeCard) = true := by
    decide +kernel
  obtain ⟨card, d₁, hcard⟩ := ok_of_succeeded hcard
  obtain ⟨column, d₂, hcolumn⟩ := ok_of_succeeded hcolumn
  refine ⟨⟨card, d₁, hcard, (stored_is_validated permissiveEnv _ claudeCard d₁).1 _ card hcard⟩,
    column, d₂, hcolumn, ?_⟩
  obtain ⟨old, hold, hstored, hmerged, -⟩ :=
    (stored_is_validated permissiveEnv _ claudeCard d₂).2 _ column hcolumn
  exact ⟨old, hold, hmerged rfl, hstored⟩

end HerdrBoard.Editing
