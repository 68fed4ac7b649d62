import HerdrBoard.Timeouts.Agreeing

/-!
# What a run may work

The timeout of a column is a budget of working time: however often the run waits, and however often
the daemon restarts, the run is due once it has worked for as long as its launch gave it. -/

open Lib HerdrBoard.Core HerdrBoard.Daemon HerdrBoard.Lifecycle

namespace HerdrBoard.Timeouts

/-! ## Meters -/

def Timed.isActive (t : Timed) (runId : Int) : Bool :=
  (t.world.daemon.db.run? runId).any Run.isActive

/-- The run is not waiting for anyone. -/
def Timed.isWorking (t : Timed) (runId : Int) : Bool :=
  ((t.world.daemon.db.run? runId).bind fun r => t.world.daemon.db.card? r.cardId).any fun c =>
    c.status != .awaiting

/-- The daemon, and for each run what its launch gave it and how long it has worked since. -/
structure Metered where
  timed : Timed
  budget : Int → Option Int
  worked : Int → Int

variable (cfg : Config) (skew : Int)

/-- What a launch gives to its run. -/
def launchBudget : Label → Option Int
  | .dispatch env (.registered _ column _) =>
      (startDeadlines cfg env column).2.map (· - env.wallNowMs)
  | _ => none

/-- The time that a step found the run working. -/
def Timed.workedBy (t : Timed) (l : Label) (runId : Int) : Int :=
  if t.isWorking runId then (t.next cfg l).nowMs - t.nowMs else 0

def Metered.next (m : Metered) (l : Label) : Metered where
  timed := m.timed.next cfg l
  budget runId := if m.timed.isActive runId then m.budget runId else launchBudget cfg l
  worked runId := if m.timed.isActive runId then m.worked runId +
    m.timed.workedBy cfg l runId else 0

def metered : System Metered Label where
  init m := (clocked cfg).init m.timed
  step m l m' := m' = m.next cfg l

variable {cfg skew} {t : Timed} {m : Metered} {l : Label} {r r' : Run}

theorem isActive_of_mem (hr : r ∈ t.world.daemon.db.runs) : t.isActive r.id = r.isActive := by
  have hfind : t.world.daemon.db.run? r.id = some r := Table.find?_key hr
  rw [Timed.isActive, hfind, Option.any_some]

theorem card_of_active (hinv : Inv (life t.world.daemon.db.toTables))
    (hr : r ∈ t.world.daemon.db.runs)
    (hactive : r.isActive = true) : ∃ card, t.world.daemon.db.card? r.cardId = some card ∧
      (r.timeoutPausedAtMs = none ↔ card.status ≠ .awaiting) := by
  obtain ⟨c, hc, hid, -, -⟩ := hinv.card_of_open hr (isOpen_of_isActive hactive)
  obtain ⟨card, hcard, rfl⟩ := mem_cardStates.mp hc
  have hfind : t.world.daemon.db.card? r.cardId = some card := Table.find?_eq_some.mpr ⟨hcard, hid⟩
  refine ⟨card, hfind, ?_⟩
  rw [← Option.not_isSome_iff_eq_none,
    (fits_card hinv hr (isOpen_of_isActive hactive) hfind).paused]

theorem isWorking_iff (hinv : Inv (life t.world.daemon.db.toTables))
    (hr : r ∈ t.world.daemon.db.runs)
    (hactive : r.isActive = true) : t.isWorking r.id = true ↔ r.timeoutPausedAtMs = none := by
  obtain ⟨card, hcard, hpaused⟩ := card_of_active hinv hr hactive
  have hfind : t.world.daemon.db.run? r.id = some r := Table.find?_key hr
  rw [hpaused, Timed.isWorking, hfind, Option.bind_some, hcard, Option.any_some, bne_iff_ne]

/-! ## What is left of a budget -/

/-- What is left to a run, by its meter. -/
def Metered.left (m : Metered) (runId : Int) : Option Int :=
  (m.budget runId).map fun b => max 0 (b - m.worked runId)

/-- A step uses up the time that it found the run working. -/
theorem rowLeft_later (hinv : Inv (life t.world.daemon.db.toTables))
    (hr : r ∈ t.world.daemon.db.runs)
    (hactive : r.isActive = true) (hle : t.nowMs ≤ (t.next cfg l).nowMs) :
    rowLeft r (t.next cfg l).nowMs = (rowLeft r t.nowMs).map fun left =>
      max 0 (left - t.workedBy cfg l r.id) := by
  unfold rowLeft Timed.workedBy
  rw [Option.map_map]
  refine Option.map_congr fun timer htimer => ?_
  obtain ⟨d, -, rfl⟩ := Option.map_eq_some_iff.mp htimer
  rw [Function.comp_apply]
  by_cases hworking : t.isWorking r.id
  · rw [if_pos hworking]
    exact Timer.left_of_running ((isWorking_iff hinv hr hactive).mp hworking) hle
  · rw [if_neg hworking, Int.sub_zero, max_eq_right Timer.left_nonneg]
    refine Timer.left_of_paused (Option.isSome_iff_ne_none.mpr ?_)
    exact fun hnone => hworking ((isWorking_iff hinv hr hactive).mpr hnone)

/-- The store has as much left to each active run as its meter. -/
structure Fair (m : Metered) : Prop extends SoundRuns m.timed where
  left : ∀ r ∈ m.timed.world.daemon.db.runs, r.isActive = true →
    rowLeft r m.timed.nowMs = m.left r.id

theorem workedBy_nonneg {runId : Int} (hle : t.nowMs ≤ (t.next cfg l).nowMs) :
    0 ≤ t.workedBy cfg l runId := by
  unfold Timed.workedBy
  split
  · exact Int.sub_nonneg_of_le hle
  · exact Int.le_refl 0

/-- What a run had left, less what it worked, is what it has left. -/
theorem Fair.later (hfair : Fair m) (htime : KeepsTime cfg m.timed l)
    (hr : r ∈ m.timed.world.daemon.db.runs) (hactive : r.isActive = true) :
    rowLeft r (m.timed.next cfg l).nowMs = (m.next cfg l).left r.id := by
  have hworked : 0 ≤ m.timed.workedBy cfg l r.id := workedBy_nonneg htime.le
  rw [rowLeft_later hfair.inv hr hactive htime.le, hfair.left r hr hactive]
  simp only [Metered.left, Metered.next, isActive_of_mem hr, hactive, if_true, Option.map_map]
  refine Option.map_congr fun b _ => ?_
  rw [Function.comp_apply]
  omega

theorem fair_init (h : (metered cfg).init m) : Fair m := by
  refine ⟨@soundRuns_init cfg m.timed h, fun r hr => ?_⟩
  have hworld : m.timed.world = .start Db.fresh := h
  rw [hworld] at hr
  cases hr

theorem fair_next (hfair : Fair m) (htime : KeepsTime cfg m.timed l) : Fair (m.next cfg l) := by
  refine ⟨soundRuns_next hfair.toSoundRuns htime, fun r' hr' hactive => ?_⟩
  rcases row_next cfg hfair.inv hr' hactive with hrow | ⟨env, a, r, before, dec, henv, h⟩ |
    ⟨env, claimed, column, handle, run, rfl, hqueued, hrun, hid, hpromoted⟩
  · exact hfair.later htime hrow hactive
  · obtain ⟨hle, hera⟩ := htime.clock env henv
    have hnow : (m.timed.next cfg l).nowMs = env.wallNowMs := nowMs_of_env henv
    have hsame : rowLeft r' env.wallNowMs = rowLeft r env.wallNowMs := by
      rw [h.row', rowLeft_signalled h.decided (hfair.sound r h.row h.active) hle hera]
    show rowLeft r' (m.timed.next cfg l).nowMs = _
    rw [hnow, hsame, ← hnow, h.id]
    exact hfair.later htime h.row h.active
  · have hidle : m.timed.isActive r'.id = false := by
      rw [hid, isActive_of_mem hrun]
      simp only [Run.isQueued, Bool.and_eq_true, Option.isNone_iff_eq_none] at hqueued
      simp [Run.isActive, hqueued]
    show rowLeft r' env.wallNowMs = _
    simp only [rowLeft, rowTimer, hpromoted.deadline, hpromoted.running, Metered.left, Metered.next,
      hidle, launchBudget, Bool.false_eq_true, if_false, Option.map_map]
    refine Option.map_congr fun d _ => ?_
    simp [Timer.left]

theorem fair_of_reachable {ok : Metered → Label → Prop}
    (hok : ∀ m l, ok m l → KeepsTime cfg m.timed l) (h : (metered cfg).ReachableBy ok m) : Fair m :=
  h.invariant (fun _ hinit => fair_init hinit) fun m l _ hfair htime hstep =>
    hstep ▸ fair_next hfair (hok m l htime)

/-! ## Runs that are due -/

/-- A running entry is due once nothing is left to it. -/
theorem due_iff_left {a : ActiveRun} {now : Instant} (hrunning : a.awaitingSince = none) :
    a.timeoutDeadline.any (fun deadline => deadline ≤ now) = true ↔ entryLeft a now = some 0 := by
  cases hd : a.timeoutDeadline with
  | none => simp [entryLeft, entryTimer, hd]
  | some d =>
      simp only [entryLeft, entryTimer, hd, hrunning, Option.any_some, decide_eq_true_eq,
        Option.map_some, Option.some.injEq]
      exact (Timer.left_eq_zero_iff (t := ⟨d, none⟩) rfl).symm

/-- Nothing is left to a running row once its run has worked for its budget. -/
theorem Fair.left_eq_zero (hfair : Fair m) (hr : r ∈ m.timed.world.daemon.db.runs)
    (hactive : r.isActive = true)
    (hrunning : r.timeoutPausedAtMs = none) {now : Int} (hnow : m.timed.nowMs ≤ now) :
    rowLeft r now = some 0 ↔
      ∃ b, m.budget r.id = some b ∧ b ≤ m.worked r.id + (now - m.timed.nowMs) := by
  have hleft := hfair.left r hr hactive
  have hlater : rowLeft r now = (rowLeft r m.timed.nowMs).map fun left =>
      max 0 (left - (now - m.timed.nowMs)) := by
    unfold rowLeft
    rw [Option.map_map]
    refine Option.map_congr fun timer htimer => ?_
    obtain ⟨d, -, rfl⟩ := Option.map_eq_some_iff.mp htimer
    exact Timer.left_of_running hrunning hnow
  rw [hlater, hleft, Metered.left, Option.map_map, Option.map_eq_some_iff]
  refine exists_congr fun b => and_congr_right fun _ => ?_
  rw [Function.comp_apply]
  omega

/-- However often its card awaited someone and however often the daemon restarted, a watched run is
due exactly when its card awaits no one and it has worked for what its launch gave it. -/
theorem due_once_budget_worked
    (h : (metered cfg).ReachableBy (fun m l => AdoptsInTime cfg skew m.timed l) m) {run : Run}
    {card : Card} {a : ActiveRun} (hrun : run ∈ m.timed.world.daemon.db.runs)
    (hactive : run.isActive = true) (hcard : m.timed.world.daemon.db.card? run.cardId = some card)
    (hwatched : m.timed.world.daemon.sched.active.lookup run.id = some a) {now : Int}
    (hnow : m.timed.nowMs ≤ now) :
    Due (now + skew) run card a m.timed.world.daemon ↔ card.status ≠ .awaiting ∧
      ∃ b, m.budget run.id = some b ∧ b ≤ m.worked run.id + (now - m.timed.nowMs) := by
  have hagree : Agreeing skew m.timed := h.invariant (I := fun m => Agreeing skew m.timed)
    (fun m hinit => @agreeing_init cfg skew m.timed hinit) fun _ _ _ hagree htime hstep =>
      hstep ▸ agreeing_next hagree htime
  have hfair : Fair m := fair_of_reachable (fun _ _ htime => htime.toKeepsTime) h
  obtain ⟨card', hcard', hpaused⟩ := card_of_active hagree.inv hrun hactive
  obtain rfl : card' = card := Option.some.inj (hcard'.symm.trans hcard)
  have hshows := (hagree.shows run hrun hactive a hwatched).advance hnow
  have hdue (hawaiting : card'.status ≠ .awaiting) :
      a.timeoutDeadline.any (fun deadline => deadline ≤ now + skew) = true ↔
        ∃ b, m.budget run.id = some b ∧ b ≤ m.worked run.id + (now - m.timed.nowMs) := by
    have hrunning : run.timeoutPausedAtMs = none := hpaused.mpr hawaiting
    rw [due_iff_left (by simp [hshows.pause, hrunning]), hshows.left,
      hfair.left_eq_zero hrun hactive hrunning hnow]
  constructor
  · intro h
    exact ⟨h.notAwaiting, (hdue h.notAwaiting).mp h.deadline⟩
  · rintro ⟨hawaiting, hspent⟩
    exact ⟨hrun, hactive, hcard, hwatched, (hdue hawaiting).mpr hspent, hawaiting⟩

def Metered.run (cfg : Config) (m : Metered) : List Label → Metered
  | [] => m
  | l :: ls => (m.next cfg l).run cfg ls

theorem reachableBy_meteredRun
    (h : (metered cfg).ReachableBy (fun m l => AdoptsInTime cfg skew m.timed l) m)
    {ls : List Label} (hls : m.timed.allInTime cfg skew ls = true) :
    (metered cfg).ReachableBy (fun m l => AdoptsInTime cfg skew m.timed l) (m.run cfg ls) := by
  induction ls generalizing m with
  | nil => exact h
  | cons l ls ih =>
      simp only [Timed.allInTime, Bool.and_eq_true] at hls
      exact ih (h.step (adoptsInTime_of_inTime hls.1) rfl) hls.2

def unmetered : Metered := ⟨startOfTime, fun _ => none, fun _ => 0⟩

/-- A run that awaited someone for two minutes, and was adopted in between, is due two
minutes late. -/
def resumed : Metered :=
  unmetered.run oneAtATime (adoptedLabels ++ [.watch (clockAt 180000) (.signal 1 1 .working)])

theorem due_once_budget_worked_resumed : ∃ run card a,
    (metered oneAtATime).ReachableBy (fun m l => AdoptsInTime oneAtATime 0 m.timed l) resumed ∧
    Due (1920000 + 0) run card a resumed.timed.world.daemon ∧
    ¬Due (1919999 + 0) run card a resumed.timed.world.daemon := by
  have hreach : (metered oneAtATime).ReachableBy
      (fun m l => AdoptsInTime oneAtATime 0 m.timed l) resumed :=
    reachableBy_meteredRun (m := unmetered) (System.ReachableBy.init (S := metered oneAtATime) rfl)
      (by decide +kernel)
  have hfacts : (resumed.timed.nowMs = 180000 ∧ resumed.budget 1 = some 1800000 ∧
      resumed.worked 1 = 60000) ∧
      ((resumed.timed.world.daemon.db.run? 1).any fun run => run.isActive &&
        (resumed.timed.world.daemon.db.card? run.cardId).any fun card => card.status != .awaiting) =
          true ∧
      (resumed.timed.world.daemon.sched.active.lookup 1).isSome = true := by
    decide +kernel
  obtain ⟨hmeter, hrow, hentry⟩ := hfacts
  simp only [Option.any_eq_true, Bool.and_eq_true, bne_iff_ne] at hrow
  obtain ⟨run, hfind, hactive, card, hcard, hawaiting⟩ := hrow
  obtain ⟨a, ha⟩ := Option.isSome_iff_exists.mp hentry
  have hrun : run ∈ resumed.timed.world.daemon.db.runs := Table.mem_of_find? hfind
  have hid : run.id = 1 := Table.key_of_find? hfind
  obtain ⟨hnow, hbudget, hworked⟩ := hmeter
  refine ⟨run, card, a, hreach, ?_, ?_⟩
  · refine (due_once_budget_worked hreach hrun hactive hcard (hid ▸ ha) (by omega)).mpr
      ⟨hawaiting, 1800000, ?_, ?_⟩
    · rw [hid, hbudget]
    · rw [hid, hworked, hnow]
      decide
  · intro hdue
    obtain ⟨-, b, hb, hle⟩ :=
      (due_once_budget_worked hreach hrun hactive hcard (hid ▸ ha) (by omega)).mp hdue
    rw [hid, hbudget] at hb
    rw [hid, hworked, hnow] at hle
    cases hb
    omega

end HerdrBoard.Timeouts
