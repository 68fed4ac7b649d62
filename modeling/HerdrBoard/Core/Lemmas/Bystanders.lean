import HerdrBoard.Core.Lemmas.Success

/-!
# Bystanders

What the end of one card's run leaves of another card.
-/

namespace HerdrBoard.Core

open Lib

/-- A card without its place on the board. -/
def Card.unplaced (c : Card) : Card := { c with columnId := 0, position := 0, updatedAt := "" }

/-- What the store says about a card, wherever it stands: its row, its runs, its comments,
and the boards. -/
def Tables.about (cardId : Int) (t : Tables) :
    Table Column × Table Board × Table Project × Option Card × List Run × List Comment :=
  (t.columns, t.boards, t.projects, (t.cards.find? cardId).map Card.unplaced,
    t.runs.select fun r => r.cardId == cardId, t.comments.select fun m => m.cardId == cardId)

variable {cardId other : Int}

theorem about_updateCards {t : Tables} {p : Card → Bool} {f : Card → Card} {hkey}
    (hf : ∀ c, p c = true → c.id = cardId → (f c).unplaced = c.unplaced) :
    Tables.about cardId { t with cards := t.cards.update p f hkey } = t.about cardId := by
  have hcard : ((t.cards.update p f hkey).find? cardId).map Card.unplaced =
      (t.cards.find? cardId).map Card.unplaced := by
    rw [Table.find?_update, Option.map_map]
    cases hfind : t.cards.find? cardId with
    | none => rfl
    | some c =>
        have hid : c.id = cardId := Table.key_of_find? hfind
        simp only [Option.map_some, Function.comp_apply, Option.some.injEq]
        split
        · next hp => exact hf c hp hid
        · rfl
  simp only [Tables.about, hcard]

theorem placeBlind_about : PlaceBlind (Tables.about cardId) := by
  intro t p f hkey hf
  refine about_updateCards fun c _ _ => ?_
  obtain ⟨_, _, _, hc⟩ := hf c
  rw [hc]
  rfl

theorem about_updateRuns {t : Tables} {p : Run → Bool} {f : Run → Run} {hkey}
    (hp : ∀ r ∈ t.runs, p r = true → r.cardId ≠ cardId) (hf : ∀ r, (f r).cardId = r.cardId) :
    Tables.about cardId { t with runs := t.runs.update p f hkey } = t.about cardId := by
  have hruns : (t.runs.update p f hkey).select (fun r => r.cardId == cardId) =
      t.runs.select fun r => r.cardId == cardId := by
    rw [Table.select, Table.update, List.filter_map, Table.select]
    have hsame : ((fun r : Run => r.cardId == cardId) ∘ fun r => if p r then f r else r) =
        fun r => r.cardId == cardId := by
      funext r
      simp only [Function.comp_apply]
      split
      · rw [hf]
      · rfl
    rw [hsame]
    refine (List.map_congr_left fun r hr => ?_).trans (List.map_id _)
    obtain ⟨hr, hcard⟩ := List.mem_filter.mp hr
    by_cases hpr : p r = true
    · exact absurd (beq_iff_eq.mp hcard) (hp r hr hpr)
    · simp [hpr]
  simp only [Tables.about, hruns]

theorem about_insertRun {t : Tables} {row : Int → Run} {hkey}
    (h : (row t.runs.nextKey).cardId ≠ cardId) :
    Tables.about cardId { t with runs := t.runs.insert row hkey } = t.about cardId := by
  have hruns : (t.runs.insert row hkey).select (fun r => r.cardId == cardId) =
      t.runs.select fun r => r.cardId == cardId := by
    simp [Table.select, Table.insert, h]
  simp only [Tables.about, hruns]

section

variable (hne : other ≠ cardId)

include hne

theorem keeps_about_insertComment (conn : Conn) (author body : String) :
    KeepsTables (Tables.about cardId) (insertComment conn other author body) := by
  refine readOnly_get.respects.bind fun _ => Respects.bind (keeps_exec fun t => ?_) fun _ =>
    respects_pure _
  simp [Tables.about, Table.select, Table.insert, hne]

theorem keeps_about_insertComments (conn : Conn) (comments : List (String × String)) :
    KeepsTables (Tables.about cardId) (insertComments conn other comments) := by
  induction comments with
  | nil => exact respects_pure ()
  | cons comment comments ih =>
      exact (keeps_about_insertComment hne conn comment.1 comment.2).bind fun _ => ih

theorem keeps_about_updateCards {f : Card → Card} {hkey} :
    KeepsTables (Tables.about cardId) (updateCards (fun c => c.id == other) f hkey) := by
  refine keeps_updateCards fun t => about_updateCards fun c hp hid => ?_
  exact absurd ((beq_iff_eq.mp hp).symm.trans hid) hne

theorem keeps_about_insertNext (next : Option EnqueueRun)
    (hnext : ∀ p, next = some p → p.cardId = other) :
    KeepsTables (Tables.about cardId) (insertNext other next) := by
  cases next with
  | none => exact respects_pure _
  | some p =>
      refine Respects.bind (keeps_execBetween fun t => about_insertRun ?_) fun _ => ?_
      · show p.cardId ≠ cardId
        rw [hnext p rfl]
        exact hne
      · exact (keeps_about_updateCards hne).bind fun _ => respects_pure _

theorem keeps_about_updateRuns {p : Run → Bool} {f : Run → Run} {hkey}
    (hp : ∀ r, p r = true → r.cardId = other)
    (hf : ∀ r, (f r).cardId = r.cardId) : KeepsTables (Tables.about cardId) (updateRuns p f hkey) :=
  keeps_exec fun _ => about_updateRuns (fun r _ hr => (hp r hr).trans_ne hne) hf

theorem keeps_about_pauseRunTimeoutUow (conn : Conn) (reason : AwaitingReason) (nowMs : Int) :
    KeepsTables (Tables.about cardId) (pauseRunTimeoutUow conn other reason nowMs) := by
  refine Respects.bind (Respects.transaction ?_) fun _ => (readOnly_requireCard other).respects
  exact (keeps_about_updateCards hne).bind fun _ => keeps_about_updateRuns hne (by simp; tauto)
    (by intro r; rfl)

theorem keeps_about_setCardAwaiting (conn : Conn) (reason : AwaitingReason) :
    KeepsTables (Tables.about cardId) (setCardAwaiting conn other reason) :=
  (keeps_about_updateCards hne).bind fun _ => (readOnly_requireCard other).respects

theorem keeps_about_setCardStatus (conn : Conn) (status : CardStatus) :
    KeepsTables (Tables.about cardId) (setCardStatus conn other status) :=
  (readOnly_refuse _ _).respects.bind fun _ => (keeps_about_updateCards hne).bind fun _ =>
    (readOnly_requireCard other).respects

theorem keeps_about_resumeRunTimeoutUow (conn : Conn) (status : CardStatus) (nowMs : Int) :
    KeepsTables (Tables.about cardId) (resumeRunTimeoutUow conn other status nowMs) := by
  refine (readOnly_refuse _ _).respects.bind fun _ => ?_
  refine Respects.bind (Respects.transaction ?_) fun _ => (readOnly_requireCard other).respects
  refine readOnly_get.respects.bind fun db => ?_
  dsimp only
  split
  · refine Respects.bind (keeps_about_updateRuns hne (by simp; tauto) (by intro r; rfl)) fun _ => ?_
    exact (keeps_about_updateCards hne).bind fun _ => respects_pure _
  · exact (respects_pure _).bind fun _ => (keeps_about_updateCards hne).bind fun _ =>
      respects_pure _

end

/-! ## What the image tells -/

section

variable {db db' : Db}

theorem mem_runs_of_about (h : db'.toTables.about cardId = db.toTables.about cardId) {r : Run}
    (hr : r ∈ db.runs) (hcard : r.cardId = cardId) : r ∈ db'.runs := by
  have hruns : db'.runs.select (fun r => r.cardId == cardId) = db.runs.select fun r =>
      r.cardId == cardId :=
    congrArg (fun a => a.2.2.2.2.1) h
  have hin : r ∈ db'.runs.select fun r => r.cardId == cardId := by
    rw [hruns]
    exact Table.mem_select.mpr ⟨hr, by simpa using hcard⟩
  exact (Table.mem_select.mp hin).1

theorem listComments_of_about (h : db'.toTables.about cardId = db.toTables.about cardId) :
    db'.listComments cardId = db.listComments cardId := by
  have hcomments : db'.comments.select (fun m => m.cardId == cardId) = db.comments.select fun m =>
      m.cardId == cardId :=
    congrArg (fun a => a.2.2.2.2.2) h
  have hselect : ∀ d : Db, d.comments.select (fun m => m.cardId == cardId && m.deletedAt.isNone) =
      (d.comments.select fun m => m.cardId == cardId).filter fun m => m.deletedAt.isNone := by
    intro d
    simp [Table.select, List.filter_filter, Bool.and_comm]
  simp only [Db.listComments, hselect, hcomments]

theorem card?_of_about (h : db'.toTables.about cardId = db.toTables.about cardId) {card : Card}
    (hcard : db.card? cardId = some card) :
    ∃ columnId position updatedAt,
      db'.card? cardId = some { card with columnId, position, updatedAt } := by
  have hrow : (db'.card? cardId).map Card.unplaced = (db.card? cardId).map Card.unplaced :=
    congrArg (fun a => a.2.2.2.1) h
  rw [hcard, Option.map_some] at hrow
  obtain ⟨card', hfind, hsame⟩ := Option.map_eq_some_iff.mp hrow
  refine ⟨card'.columnId, card'.position, card'.updatedAt, ?_⟩
  rw [hfind]
  cases card
  cases card'
  simp only [Card.unplaced, Card.mk.injEq, true_and] at hsame
  simp only [Option.some.injEq, Card.mk.injEq, true_and]
  tauto

end

/-! ## The end of another run -/

/-- The end of a run leaves the other cards as they are. -/
theorem about_finalizeRunTx {conn : Conn} {p : FinalizeRun} {db db' : Db} {ids : Int × Option Int}
    (h : finalizeRunTx conn p db = .ok ids db') (hne : ids.1 ≠ cardId) :
    db'.toTables.about cardId = db.toTables.about cardId := by
  simp only [finalizeRunTx, bind_ok, get_ok, okOr_ok, updateRuns_ok, pure_ok] at h
  obtain ⟨_, _, ⟨rfl, rfl⟩, run, _, ⟨hrun, rfl⟩, _, _, hcheck, _, mid₁, hruns, _, mid₂, hfault,
    _, mid₃, hcomments, _, mid₄, htrans, _, mid₅, hcards, nextId, mid₆, hnext, rfl, rfl⟩ := h
  obtain ⟨hfind, -⟩ := Option.filter_eq_some_iff.mp hrun
  cases lifecycleFault_ok hfault
  have hended : mid₁.toTables.about cardId = db.toTables.about cardId := by
    cases (readOnly_checkNext _ _).ok hcheck
    rw [hruns]
    refine about_updateRuns (fun r hr hid => ?_) fun r => rfl
    have hfind' : db.run? r.id = some r := Table.find?_key hr
    rw [beq_iff_eq.mp hid, hfind] at hfind'
    cases hfind'
    exact hne
  have hsame : ∀ next, p.next = some next → next.cardId = run.cardId := by
    intro next hsome
    rw [hsome] at hcheck
    simp only [checkNext, bind_ok, refuse_ok, not_not] at hcheck
    exact hcheck.choose_spec.choose_spec.1.1
  have hnoted := (keeps_about_insertComments hne conn p.comments).ok hcomments
  have hmoved : mid₄.toTables.about cardId = mid₃.toTables.about cardId :=
    (keeps_applyTransition placeBlind_about run.cardId p.targetColumnId).ok htrans
  have hset := (keeps_about_updateCards hne).ok hcards
  exact (((keeps_about_insertNext hne p.next hsame).ok hnext).trans hset).trans
    ((hmoved.trans hnoted).trans hended)

end HerdrBoard.Core
