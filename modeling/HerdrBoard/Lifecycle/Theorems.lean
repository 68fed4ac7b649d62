import HerdrBoard.Lifecycle.Launches

/-!
# The lifecycle of every card

In every state the daemon reaches, the status of a card tells the phase of its one open run.
-/

open Lib HerdrBoard.Core HerdrBoard.Daemon

namespace HerdrBoard.Lifecycle

variable {cfg : Config}

/-- Statuses of a card with an open run. -/
def isBusyStatus (s : CardStatus) : Prop :=
  s = .queued ∨ s = .running ∨ s = .blocked ∨ s = .awaiting

/-- The card and its runs agree on the phase of the card. -/
structure CardLifecycle (db : Db) (card : Card) : Prop where
  open_unique : ∀ r ∈ db.runs, ∀ s ∈ db.runs, r.cardId = card.id → s.cardId = card.id →
    r.endedAt = none → s.endedAt = none → r = s
  open_iff : (∃ r ∈ db.runs, r.cardId = card.id ∧ r.endedAt = none) ↔ isBusyStatus card.status
  unstarted_iff : ∀ r ∈ db.runs, r.cardId = card.id → r.endedAt = none →
    (r.startedAt = none ↔ card.status = .queued)
  reason_iff : card.awaitingReason.isSome ↔ card.status = .awaiting
  paused_iff : ∀ r ∈ db.runs, r.cardId = card.id → r.endedAt = none →
    (r.timeoutPausedAtMs.isSome ↔ card.status = .awaiting)

theorem busy_iff_not_closed {s : CardStatus} : isBusyStatus s ↔ ¬isClosedStatus s := by
  cases s <;> simp [isBusyStatus, isClosedStatus]

theorem card_lifecycle {w : World} (h : (boardd cfg).Reachable w) {card : Card}
    (hcard : card ∈ w.daemon.db.cards) : CardLifecycle w.daemon.db card := by
  have hinv := inv_of_reachable h
  have hok := hinv.card _ (mem_cardStates.mpr ⟨card, hcard, rfl⟩)
  have hfit : ∀ r ∈ w.daemon.db.runs, r.cardId = card.id → r.endedAt = none →
      Fits r card.status := by
    intro r hr hid hend
    exact fits_card hinv hr (isOpen_iff.mpr hend) (hid ▸ Table.find?_key hcard)
  exact
    { open_unique := fun r hr s hs hrc hsc hre hse =>
        Db.open_run_unique hr hs (hrc.trans hsc.symm) (isOpen_iff.mpr hre) (isOpen_iff.mpr hse)
      open_iff := by
        rw [busy_iff_not_closed]
        rcases hok.phase with ⟨hclosed, hs⟩ | ⟨r, hr, hfits⟩
        · refine iff_of_false ?_ (not_not.mpr hs)
          rintro ⟨r, hr, hid, hend⟩
          exact absurd (isOpen_iff.mpr hend) (by rw [hclosed r hr hid]; decide)
        · exact iff_of_true ⟨r, hr.mem, hr.card, isOpen_iff.mp hr.isOpen⟩ hfits.busy
      unstarted_iff := fun r hr hid hend => (hfit r hr hid hend).unstarted
      reason_iff := (Db.awaiting_iff hcard).symm
      paused_iff := fun r hr hid hend => (hfit r hr hid hend).paused }

/-! ## A history -/

/-- One run at a time, minutes of a minute. -/
def oneAtATime : Config where
  maxConcurrent := 1
  idleGraceSeconds := 60
  timeoutUnitSecs := 60
  harness := []

/-- Every harness takes any model, every session and space resolves. -/
def permissiveEnv : Env where
  conn := { now := "2026-01-01 00:00:00" }
  instant := 0
  wallNowMs := 0
  uuid := "7f0c"
  capabilitiesFor _ :=
    some { models := [], modelFreeform := true, defaultEfforts := [], permissionModes := [] }
  resolveSession _ := .ok ()
  resolveSpace _ _ _ := .ok ()

/-- A card is created and moved into an auto column. -/
def queueOneCard : List Label :=
  [ .request permissiveEnv (.cardCreate { title := "Task", spaceRef := some "w1" }),
    .request permissiveEnv
      (.columnCreate { name := "Run", trigger := some .auto, timeoutMinutes := some 30 }),
    .request permissiveEnv (.cardMove { id := 1, columnId := 2 }) ]

/-- The daemon with one queued card. -/
def oneQueuedCard : World := (World.start Db.fresh).run oneAtATime queueOneCard

theorem reachable_oneQueuedCard : (boardd oneAtATime).Reachable oneQueuedCard :=
  reachable_run reachable_start _

theorem card_lifecycle_queued :
    ∃ card, oneQueuedCard.daemon.db.card? 1 = some card ∧ card.status = .queued ∧
    CardLifecycle oneQueuedCard.daemon.db card := by
  have hcard : (oneQueuedCard.daemon.db.card? 1).isSome := by decide
  obtain ⟨card, hfind⟩ := Option.isSome_iff_exists.mp hcard
  have hstatus : (oneQueuedCard.daemon.db.card? 1).map Card.status = some .queued := by decide
  rw [hfind] at hstatus
  refine ⟨card, hfind, Option.some.inj hstatus, ?_⟩
  exact card_lifecycle reachable_oneQueuedCard (Table.mem_of_find? hfind)

end HerdrBoard.Lifecycle
