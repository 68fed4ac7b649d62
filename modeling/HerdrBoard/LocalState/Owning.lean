import HerdrBoard.LocalState.Marks

/-!
# Marks and notes over time

Sets, unmarks and recorded activity of any callers, in any order.
-/

open Lib HerdrBoard.Core

namespace HerdrBoard.LocalState

variable {db db' : LinearDb}

/-! ## Operations -/

inductive MarkOp where
  | markSet (p : LinearMarkSetParams) (knownElsewhere : Bool)
  | unmark (p : LinearMarkUnmarkParams)
  | noteSet (p : LinearNoteSetParams) (knownElsewhere : Bool)
  | activity (p : LinearActivityRecordParams)

def MarkOp.run (out : Outside) : MarkOp → LsM Unit
  | .markSet p knownElsewhere => do
      let _ ← linearMarkSet out p knownElsewhere
  | .unmark p => do
      let _ ← linearMarkUnmark p
  | .noteSet p knownElsewhere => do
      let _ ← linearNoteSet out p knownElsewhere
  | .activity p => do
      let _ ← linearActivityRecord out p

/-- The store after the operations, each with what is outside the store when it runs. -/
def markRun (ops : List (Outside × MarkOp)) (db : LinearDb) : LinearDb :=
  ops.foldl (fun db op => finalState (op.2.run op.1 db)) db

/-! ## One row in a slot -/

/-- No caller has two marks of a kind on an issue, no author two notes. -/
structure OwnsOne (db : LinearDb) : Prop where
  marks : OnePerSlot Mark.slot db.marks
  notes : OnePerSlot Note.slot db.notes

theorem ownsOne_fresh : OwnsOne .fresh := ⟨onePerSlot_empty, onePerSlot_empty⟩

theorem OwnsOne.of_annotations (h : OwnsOne db) (hsame : db'.annotations = db.annotations) :
    OwnsOne db' := by
  obtain ⟨hmarks, hnotes⟩ :=
    Prod.mk.inj (show (db'.marks, db'.notes) = (db.marks, db.notes) from hsame)
  constructor
  · rw [hmarks]
    exact h.marks
  · rw [hnotes]
    exact h.notes

theorem Suggests.onePerSlot {p : LinearActivityRecordParams} {result : LinearActivityRecordResult}
    {t t' : Table Mark}
    (hstep : Suggests p result t t') (h : OnePerSlot Mark.slot t) : OnePerSlot Mark.slot t' := by
  cases hstep with
  | recorded houtcome hsame => rwa [hsame]
  | linked houtcome issue hissue hcleared hrows => exact h.fewer fun m hm => ((hrows m).mp hm).1
  | suggested houtcome issue space before after hissue hspace hmark hreplaced =>
      exact h.replaced hreplaced

theorem finalState_discard {α : Type} (x : LsM α) (db : LinearDb) :
    finalState ((do let _ ← x) db) = finalState (x db) :=
  finalState_bind_readOnly (fun _ => readOnly_pure _) db

theorem OwnsOne.step (out : Outside) (op : MarkOp) (h : OwnsOne db) :
    OwnsOne (finalState (op.run out db)) := by
  cases op with
  | markSet p known =>
      rw [MarkOp.run, finalState_discard]
      cases hrun : linearMarkSet out p known db with
      | error e db' =>
          exact h.of_annotations (congrArg _ (linearMarkSet_atomic out p known db e db' hrun))
      | ok pair db' =>
          obtain ⟨-, hdb, -, hreplaced⟩ := linearMarkSet_ok out hrun
          rw [finalState_ok, hdb]
          exact ⟨h.marks.replaced hreplaced, h.notes⟩
  | unmark p =>
      rw [MarkOp.run, finalState_discard]
      cases hrun : linearMarkUnmark p db with
      | error e db' => exact h.of_annotations (congrArg _ (linearMarkUnmark_atomic p db e db' hrun))
      | ok removed db' =>
          obtain ⟨-, hdb, -, hrows⟩ := linearMarkUnmark_ok hrun
          rw [finalState_ok, hdb]
          exact ⟨h.marks.fewer fun m hm => ((hrows m).mp hm).1, h.notes⟩
  | noteSet p known =>
      rw [MarkOp.run, finalState_discard]
      cases hrun : linearNoteSet out p known db with
      | error e db' =>
          exact h.of_annotations (congrArg _ (linearNoteSet_atomic out p known db e db' hrun))
      | ok pair db' =>
          obtain ⟨hdb, -, -, hreplaced⟩ := linearNoteSet_ok out hrun
          rw [finalState_ok, hdb]
          exact ⟨h.marks, h.notes.replaced hreplaced⟩
  | activity p =>
      rw [MarkOp.run, finalState_discard]
      cases hrun : linearActivityRecord out p db with
      | error e db' =>
          exact h.of_annotations
            (linearActivityRecord_atomicBy out keeps_recordActivity p db e db' hrun)
      | ok result db' =>
          obtain ⟨hnotes, hmarks⟩ := linearActivityRecord_ok out hrun
          exact ⟨hmarks.onePerSlot h.marks, hnotes ▸ h.notes⟩

theorem OwnsOne.run (ops : List (Outside × MarkOp)) (h : OwnsOne db) :
    OwnsOne (markRun ops db) := by
  induction ops generalizing db with
  | nil => exact h
  | cons op ops ih => exact ih (h.step op.1 op.2)

/-! ## Whose rows go -/

theorem marks_and_notes_owned :
    (∀ ops, OwnsOne (markRun ops .fresh)) ∧
    (∀ out p known (db : LinearDb),
      (∀ before after db', linearMarkSet out p known db = .ok (before, after) db' →
        db' = db.withMarks db'.marks ∧ after.text = p.text.map stripControlKeepLines ∧
        Replaced Mark.slot (herdrSession (cleanOwner p.owner).herdrSocket, p.space, p.issue, p.kind,
          cleanOwner p.owner) before after db.marks db'.marks) ∧
      ∀ e db', linearMarkSet out p known db = .error e db' → db' = db) ∧
    (∀ p (db : LinearDb), (∀ removed db', linearMarkUnmark p db = .ok removed db' →
        db' = db.withMarks db'.marks ∧ (∀ m, m ∈ removed ↔ m ∈ db.marks ∧ p.Covers m) ∧
        ∀ m, m ∈ db'.marks ↔ m ∈ db.marks ∧ ¬ p.Covers m) ∧
      ∀ e db', linearMarkUnmark p db = .error e db' → db' = db) ∧
    (∀ out p known (db : LinearDb),
      (∀ before after db', linearNoteSet out p known db = .ok (before, after) db' →
        db' = db.withNotes db'.notes ∧ after.body = stripControlKeepLines p.body ∧
        after.owner = cleanOwner p.owner ∧
        Replaced Note.slot (herdrSession (cleanOwner p.owner).herdrSocket, p.space, p.issue,
          stripControlAndFormat p.author) before after db.notes db'.notes) ∧
      ∀ e db', linearNoteSet out p known db = .error e db' → db' = db) ∧
    ∀ out p (db : LinearDb), (∀ result db', linearActivityRecord out p db = .ok result db' →
        db'.notes = db.notes ∧ Suggests p result db.marks db'.marks) ∧
      ∀ e db', linearActivityRecord out p db = .error e db' →
        db'.marks = db.marks ∧ db'.notes = db.notes := by
  refine ⟨fun ops => ownsOne_fresh.run ops,
    fun out p known db => ⟨fun before after db' h => ?_, linearMarkSet_atomic out p known db⟩,
    fun p db => ⟨fun removed db' h => ?_, linearMarkUnmark_atomic p db⟩,
    fun out p known db =>
      ⟨fun before after db' h => linearNoteSet_ok out h, linearNoteSet_atomic out p known db⟩,
    fun out p db => ⟨fun result db' h => linearActivityRecord_ok out h, fun e db' h => ?_⟩⟩
  · obtain ⟨-, hdb, htext, hreplaced⟩ := linearMarkSet_ok out h
    exact ⟨hdb, htext, hreplaced⟩
  · obtain ⟨-, hdb, hremoved, hrows⟩ := linearMarkUnmark_ok h
    exact ⟨hdb, hremoved, hrows⟩
  · exact Prod.mk.inj (show (db'.marks, db'.notes) =
      (db.marks, db.notes) from linearActivityRecord_atomicBy out keeps_recordActivity p db e db' h)

/-- A note an author sets from a pane. -/
def noteFrom (pane : String) : Outside × MarkOp :=
  (Outside.silent, .noteSet { space := "web", issue := "WEB-1", body := "text", author := "ana",
                              owner := { herdrPaneId := some pane } } true)

/-- The same author in another pane replaces the note of the first pane. -/
theorem note_of_other_owner_replaced :
    (markRun [noteFrom "p1"] .fresh).notes.rows.map Note.owner = [{ herdrPaneId := some "p1" }] ∧
    (markRun [noteFrom "p1", noteFrom "p2"] .fresh).notes.rows.map Note.owner =
      [{ herdrPaneId := some "p2" }] := by
  decide +kernel

end HerdrBoard.LocalState
