import HerdrBoard.Lib.Timer
import HerdrBoard.Lifecycle.Launches

/-!
# The two clocks of a timeout

The store keeps a run's deadline and pause on the wall clock, and its watch entry keeps them on the
monotonic clock. Each is a timer, and each of the writes to one has its counterpart on the other. -/

open Lib HerdrBoard.Core HerdrBoard.Daemon HerdrBoard.Lifecycle

namespace HerdrBoard.Timeouts

/-! ## Timers -/

def rowTimer (r : Run) : Option Timer := r.timeoutDeadlineAtMs.map fun d => ⟨d, r.timeoutPausedAtMs⟩

def entryTimer (a : ActiveRun) : Option Timer := a.timeoutDeadline.map fun d => ⟨d, a.awaitingSince⟩

/-- What is left of the timeout by the store; nothing for a run without one. -/
def rowLeft (r : Run) (now : Int) : Option Int := (rowTimer r).map (Timer.left · now)

/-- What is left of the timeout by the watch entry. -/
def entryLeft (a : ActiveRun) (now : Instant) : Option Int := (entryTimer a).map (Timer.left · now)

/-- The entry was paused when the row was, and as much is left by both. -/
structure Shows (skew now : Int) (a : ActiveRun) (r : Run) : Prop where
  pause : a.awaitingSince = r.timeoutPausedAtMs.map (· + skew)
  left : entryLeft a (now + skew) = rowLeft r now

/-- The milliseconds that both clocks count before 64-bit arithmetic has to saturate. -/
def era : Int := 2 ^ 60

structure InEra (env : Env) : Prop where
  wall : 0 ≤ env.wallNowMs ∧ env.wallNowMs ≤ era
  instant : @LE.le Int _ 0 env.instant ∧ @LE.le Int _ env.instant era

/-- The monotonic clock shows `skew` more than the wall clock. -/
def Skewed (skew : Int) (env : Env) : Prop := @Eq Int env.instant (env.wallNowMs + skew)

/-- A pause has begun, and the deadline is not before the epoch nor more than an era ahead. -/
structure Sound (now : Int) (r : Run) : Prop where
  paused : ∀ p, r.timeoutPausedAtMs = some p → 0 ≤ p ∧ p ≤ now
  deadline : ∀ d, r.timeoutDeadlineAtMs = some d → 0 ≤ d ∧ d ≤ r.timeoutPausedAtMs.getD now + era

variable {env : Env} {skew now now' : Int} {a : ActiveRun} {r r' : Run}

/-! ## As time goes by -/

theorem Sound.advance (h : Sound now r) (hle : now ≤ now') : Sound now' r where
  paused p hp := ⟨(h.paused p hp).1, (h.paused p hp).2.trans hle⟩
  deadline d hd := by
    obtain ⟨hpos, hahead⟩ := h.deadline d hd
    refine ⟨hpos, hahead.trans ?_⟩
    cases r.timeoutPausedAtMs with
    | none => simpa using hle
    | some p => simp

/-- A run without a timeout has none on either side. -/
theorem left_cases (h : entryLeft a (now + skew) = rowLeft r now) :
    (a.timeoutDeadline = none ∧ r.timeoutDeadlineAtMs = none) ∨ ∃ m d, a.timeoutDeadline = some m ∧
      r.timeoutDeadlineAtMs = some d ∧
      (Timer.mk m a.awaitingSince).left (now + skew) =
        (Timer.mk d r.timeoutPausedAtMs).left now := by
  cases hm : a.timeoutDeadline with
  | none =>
      cases hd : r.timeoutDeadlineAtMs with
      | none => exact .inl ⟨rfl, rfl⟩
      | some d => simp [entryLeft, rowLeft, entryTimer, rowTimer, hm, hd] at h
  | some m =>
      cases hd : r.timeoutDeadlineAtMs with
      | none => simp [entryLeft, rowLeft, entryTimer, rowTimer, hm, hd] at h
      | some d => exact .inr ⟨m, d, rfl,
          rfl, by simpa [entryLeft, rowLeft, entryTimer, rowTimer, hm, hd] using h⟩

theorem Shows.advance (h : Shows skew now a r) (hle : now ≤ now') : Shows skew now' a r where
  pause := h.pause
  left := by
    rcases left_cases h.left with ⟨hm, hd⟩ | ⟨m, d, hm, hd, hleft⟩
    · simp [entryLeft, rowLeft, entryTimer, rowTimer, hm, hd]
    · simp only [entryLeft, rowLeft, entryTimer, rowTimer, hm, hd, Option.map_some]
      exact congrArg some (Timer.left_congr (by simp [h.pause]) hleft hle)

/-! ## Signals -/

/-- The run after a signal that was decided on. -/
def signalled (before : CardStatus) (dec : SignalDecision) (r : Run) (nowMs : Int) : Run :=
  setTimeout r (signalTimeout before dec r nowMs).1 (signalTimeout before dec r nowMs).2

theorem checkedInstant_of_mem {x : Int} (hlow : -(3 * era) ≤ x) (hhigh : x ≤ 3 * era) :
    checkedInstant x = some x := by
  have hlow' : @LE.le Int _ instantMin x := by
    simp only [era, instantMin] at hlow ⊢
    omega
  have hhigh' : @LE.le Int _ x instantMax := by
    simp only [era, instantMax] at hhigh ⊢
    omega
  exact if_pos ⟨hlow', hhigh'⟩

theorem saturate_of_mem {x : Int} (hlow : -(3 * era) ≤ x) (hhigh : x ≤ 3 * era) :
    saturate x = x := by
  simp only [era] at hlow hhigh
  simp only [saturate, i64Min, i64Max]
  omega

/-- Within an era nothing saturates, and resuming is resuming the timer. -/
theorem rowTimer_resumed (hsound : Sound now r) (hle : now ≤ env.wallNowMs) (hera : InEra env) :
    rowTimer (setTimeout r (resumedDeadline r env.wallNowMs) none) =
      (rowTimer r).map (Timer.resume · env.wallNowMs) := by
  obtain ⟨hwall, hwallEra⟩ := hera.wall
  cases hp : r.timeoutPausedAtMs with
  | none => cases hd :
      r.timeoutDeadlineAtMs <;> simp [rowTimer, setTimeout, resumedDeadline, hp, hd, Timer.resume]
  | some p =>
      cases hd : r.timeoutDeadlineAtMs with
      | none => simp [rowTimer, setTimeout, resumedDeadline, hp, hd]
      | some d =>
          obtain ⟨hp0, hpnow⟩ := hsound.paused p hp
          obtain ⟨hd0, hdera⟩ := hsound.deadline d hd
          rw [hp, Option.getD_some] at hdera
          simp only [rowTimer, setTimeout, resumedDeadline, hp, hd, Option.map_some, Timer.resume,
            saturatingAdd, saturatingSub]
          rw [saturate_of_mem (x := env.wallNowMs - p) (by omega)
            (by omega), saturate_of_mem (by omega) (by omega), max_comm]

section Signal

variable {before : CardStatus} {dec : SignalDecision} {nowMs : Int}

/-- A signal begins a pause, ends one, or leaves row and entry as they are. -/
theorem signalled_cases (env : Env) (r : Run)
    (hdec : dec.newStatus = .awaiting ↔ dec.awaitingReason.isSome) :
    (before ≠ .awaiting ∧
      signalled before dec r nowMs = setTimeout r r.timeoutDeadlineAtMs
        (r.timeoutPausedAtMs <|> some nowMs) ∧
      ∀ a, pauseBookkeeping env before dec.newStatus a = a.enterAwaiting env.instant) ∨
    (signalled before dec r nowMs = setTimeout r (resumedDeadline r nowMs) none ∧
      ∀ a, pauseBookkeeping env before dec.newStatus a = a.leaveAwaiting env.instant) ∨
    (signalled before dec r nowMs = r ∧ ∀ a, pauseBookkeeping env before dec.newStatus a = a) := by
  by_cases hbefore : before = .awaiting
  · cases hreason : dec.awaitingReason with
    | some reason =>
        have hafter : dec.newStatus = .awaiting := hdec.mpr (by simp [hreason])
        exact .inr (.inr (by simp [signalled, signalTimeout, pauseBookkeeping, hbefore, hreason,
          hafter, setTimeout]))
    | none =>
        have hafter : dec.newStatus ≠ .awaiting := fun h => by simpa [hreason] using hdec.mp h
        exact .inr
          (.inl (by simp [signalled, signalTimeout, pauseBookkeeping, hbefore, hreason, hafter]))
  · cases hreason : dec.awaitingReason with
    | some reason =>
        have hafter : dec.newStatus = .awaiting := hdec.mpr (by simp [hreason])
        exact .inl (by simp [signalled, signalTimeout, pauseBookkeeping, hbefore, hreason, hafter])
    | none =>
        have hafter : dec.newStatus ≠ .awaiting := fun h => by simpa [hreason] using hdec.mp h
        exact .inr (.inr (by simp [signalled, signalTimeout, pauseBookkeeping, hbefore, hreason,
          hafter, setTimeout]))

theorem rowTimer_paused (nowMs : Int) (r : Run) : rowTimer (setTimeout r r.timeoutDeadlineAtMs
    (r.timeoutPausedAtMs <|> some nowMs)) = (rowTimer r).map (Timer.pause · nowMs) := by
  cases hd : r.timeoutDeadlineAtMs <;> simp [rowTimer, setTimeout, Timer.pause, hd]

theorem entryTimer_enterAwaiting {instant : Instant} (hrunning : a.awaitingSince = none) :
    entryTimer (a.enterAwaiting instant) = (entryTimer a).map (Timer.pause · instant) := by
  cases hd : a.timeoutDeadline <;>
      simp [entryTimer, ActiveRun.enterAwaiting, Timer.pause, hd, hrunning]

theorem entryTimer_leaveAwaiting (instant : Instant) (a : ActiveRun) :
    entryTimer (a.leaveAwaiting instant) = (entryTimer a).map (Timer.resume · instant) := by
  cases hp : a.awaitingSince with
  | none => cases hd :
      a.timeoutDeadline <;> simp [entryTimer, ActiveRun.leaveAwaiting, Timer.resume, hd, hp]
  | some p =>
      cases hd : a.timeoutDeadline with
      | none => simp [entryTimer, ActiveRun.leaveAwaiting, hd, hp]
      | some d =>
          simp only [entryTimer, ActiveRun.leaveAwaiting, Timer.resume, hd, hp, Option.map_some,
            saturatingDurationSince, max_comm]

/-- What is left does not change where the timer is paused or resumed. -/
theorem left_map_resume {t : Option Timer} {now : Int}
    (hpaused : ∀ s, t = some s → ∀ p, s.pausedAt = some p → p ≤ now) :
    (t.map (Timer.resume · now)).map (Timer.left · now) = t.map (Timer.left · now) := by
  cases t with
  | none => rfl
  | some s => exact congrArg some (Timer.left_resume (hpaused s rfl))

theorem left_map_pause (t : Option Timer) (now : Int) :
    (t.map (Timer.pause · now)).map (Timer.left · now) = t.map (Timer.left · now) := by
  cases t <;> simp

/-- A signal leaves as much of the timeout as there was. -/
theorem rowLeft_signalled (hdec : dec.newStatus = .awaiting ↔ dec.awaitingReason.isSome)
    (hsound : Sound now r) (hle : now ≤ env.wallNowMs) (hera : InEra env) :
    rowLeft (signalled before dec r env.wallNowMs) env.wallNowMs = rowLeft r env.wallNowMs := by
  have hbegun : ∀ s, rowTimer r = some s → ∀ p, s.pausedAt = some p → p ≤ env.wallNowMs := by
    intro s hs p hp
    obtain ⟨d, -, rfl⟩ := Option.map_eq_some_iff.mp hs
    exact (hsound.paused p hp).2.trans hle
  unfold rowLeft
  rcases @signalled_cases before dec env.wallNowMs env r hdec with ⟨-, h, -⟩ | ⟨h, -⟩ | ⟨h, -⟩
  · rw [h, rowTimer_paused, left_map_pause]
  · rw [h, rowTimer_resumed hsound hle hera, left_map_resume hbegun]
  · rw [h]

theorem sound_signalled (hdec : dec.newStatus = .awaiting ↔ dec.awaitingReason.isSome)
    (hsound : Sound now r) (hle : now ≤ env.wallNowMs) (hera : InEra env) :
    Sound env.wallNowMs (signalled before dec r env.wallNowMs) := by
  have hlater := hsound.advance hle
  rcases @signalled_cases before dec env.wallNowMs env r hdec with ⟨-, h, -⟩ | ⟨h, -⟩ | ⟨h, -⟩
  · rw [h]
    refine ⟨fun p hp => ?_, fun d hd => ?_⟩
    · cases hpaused : r.timeoutPausedAtMs with
      | some q => exact hlater.paused p (by simpa [setTimeout, hpaused] using hp)
      | none =>
          obtain rfl : env.wallNowMs = p := by simpa [setTimeout, hpaused] using hp
          exact ⟨hera.wall.1, le_rfl⟩
    · obtain ⟨hd0, hdera⟩ := hlater.deadline d hd
      refine ⟨hd0, hdera.trans ?_⟩
      cases r.timeoutPausedAtMs <;> simp [setTimeout]
  · rw [h]
    refine ⟨nofun, fun d hd => ?_⟩
    have hresumed := rowTimer_resumed hsound hle hera
    have htimer : rowTimer (setTimeout r (resumedDeadline r env.wallNowMs) none) =
        some ⟨d, none⟩ := by
      simp only [rowTimer]
      rw [show (setTimeout r (resumedDeadline r env.wallNowMs) none).timeoutDeadlineAtMs =
        some d from hd]
      rfl
    rw [htimer] at hresumed
    obtain ⟨t, ht, htd⟩ := Option.map_eq_some_iff.mp hresumed.symm
    obtain ⟨d', hd', rfl⟩ := Option.map_eq_some_iff.mp ht
    obtain ⟨hd0, hdera⟩ := hlater.deadline d' hd'
    cases hpaused : r.timeoutPausedAtMs with
    | none =>
        simp only [Timer.resume, hpaused, Timer.mk.injEq] at htd
        simp only [hpaused, Option.getD_none] at hdera
        simp only [setTimeout, Option.getD_none]
        omega
    | some p =>
        have hp := hlater.paused p hpaused
        simp only [Timer.resume, hpaused, Timer.mk.injEq] at htd
        simp only [hpaused, Option.getD_some] at hdera
        simp only [setTimeout, Option.getD_none]
        omega
  · rw [h]
    exact hlater

/-- Row and entry keep showing the same time when the card's status changes. -/
theorem shows_signalled (hdec : dec.newStatus = .awaiting ↔ dec.awaitingReason.isSome)
    (hpaused : r.timeoutPausedAtMs.isSome ↔ before = .awaiting) (hsound : Sound now r)
    (hle : now ≤ env.wallNowMs)
    (hera : InEra env) (hclocks : Skewed skew env) (hshows : Shows skew now a r) :
    Shows skew env.wallNowMs (pauseBookkeeping env before dec.newStatus a)
      (signalled before dec r env.wallNowMs) := by
  have hlater := hshows.advance hle
  have hinstant : env.wallNowMs + skew = env.instant := Eq.symm hclocks
  have hrow := @rowLeft_signalled env now r before dec hdec hsound hle hera
  rcases @signalled_cases before dec env.wallNowMs env r hdec with
      ⟨hbefore, h, he⟩ | ⟨h, he⟩ | ⟨h, he⟩
  · have hnone : r.timeoutPausedAtMs = none := by simpa [hbefore] using hpaused
    have hrunning : a.awaitingSince = none := by simp [hshows.pause, hnone]
    rw [he]
    refine ⟨?_, ?_⟩
    · simp only [h, setTimeout, ActiveRun.enterAwaiting, hnone]
      exact congrArg some hclocks
    rw [hrow, ← hlater.left, entryLeft, entryTimer_enterAwaiting hrunning, hinstant, left_map_pause]
    rfl
  · rw [he]
    refine ⟨?_, ?_⟩
    · rw [h]
      cases ha : a.awaitingSince <;> simp [setTimeout, ActiveRun.leaveAwaiting, ha]
    · rw [hrow, ← hlater.left, entryLeft, entryTimer_leaveAwaiting, hinstant, left_map_resume]
      · rfl
      · intro s hs p hp
        obtain ⟨m, -, rfl⟩ := Option.map_eq_some_iff.mp hs
        obtain ⟨q, hq, rfl⟩ := Option.map_eq_some_iff.mp (hshows.pause ▸ hp)
        have hbegun := (hsound.paused q hq).2
        show @LE.le Int _ (q + skew) env.instant
        omega
  · rw [he, h]
    exact hlater

end Signal

/-! ## Launches and adoptions -/

/-- Both deadlines of a launch are its column's timeout away. -/
theorem startDeadlines_eq {cfg : Config} {column : Column} (hera : InEra env)
    (hahead : ∀ d, (startDeadlines cfg env column).2 = some d → d ≤ env.wallNowMs + era) :
    ∃ timeout : Option Int, (∀ ms, timeout = some ms → 0 ≤ ms ∧ ms ≤ era) ∧
      (startDeadlines cfg env column).1 = timeout.map (env.instant + ·) ∧
      (startDeadlines cfg env column).2 = timeout.map (env.wallNowMs + ·) := by
  obtain ⟨⟨hwall, hwallEra⟩, hinstant, hinstantEra⟩ := hera
  simp only [startDeadlines] at hahead ⊢
  cases hm : column.timeoutMinutes with
  | none => exact ⟨none, nofun, rfl, rfl⟩
  | some m =>
      simp only [hm, Option.map_some, Option.bind_some, Option.some.injEq, forall_eq'] at hahead ⊢
      generalize hms : saturatingMul (saturatingMul (max m 0) cfg.timeoutUnitSecs) 1000 = ms at *
      have hms0 : 0 ≤ ms := by
        have hunit : 0 ≤ max m 0 * (cfg.timeoutUnitSecs : Int) :=
          Int.mul_nonneg (le_max_right _ _) (Int.natCast_nonneg _)
        simp only [← hms, saturatingMul, saturate, i64Min, i64Max]
        omega
      have hsum : saturatingAdd env.wallNowMs ms = env.wallNowMs + ms ∧ ms ≤ era := by
        simp only [saturatingAdd, saturate, i64Min, i64Max, era] at hahead hwallEra ⊢
        omega
      have hmsEra := hsum.2
      have hchecked : checkedInstant (env.instant + ms) = some (env.instant + ms) :=
        checkedInstant_of_mem (by omega) (by omega)
      refine ⟨some ms, fun _ heq => Option.some.inj heq ▸ ⟨hms0, hsum.2⟩, hchecked, ?_⟩
      rw [hsum.1]
      rfl

section Launch

variable {cfg : Config} {column : Column} (hera : InEra env)
  (hahead : ∀ d, (startDeadlines cfg env column).2 = some d → d ≤ env.wallNowMs + era)
  (hdeadline : r.timeoutDeadlineAtMs = (startDeadlines cfg env column).2)
  (hrunning : r.timeoutPausedAtMs = none)
include hera hahead hdeadline hrunning

theorem sound_registered : Sound env.wallNowMs r := by
  obtain ⟨timeout, hms, -, hrow⟩ := startDeadlines_eq hera hahead
  refine ⟨by simp [hrunning], fun d hd => ?_⟩
  obtain ⟨ms, hsome, rfl⟩ := Option.map_eq_some_iff.mp (hrow.symm.trans (hdeadline.symm.trans hd))
  obtain ⟨hms0, hmsEra⟩ := hms ms hsome
  have hwall := hera.wall.1
  simp only [hrunning, Option.getD_none]
  omega

theorem shows_registered {cardId : Int} {handle : RuntimeHandle} (hclocks : Skewed skew env) :
    Shows skew env.wallNowMs
      (registeredEntry cardId handle env.instant (startDeadlines cfg env column).1) r := by
  obtain ⟨timeout, -, hentry, hrow⟩ := startDeadlines_eq hera hahead
  have hinstant : env.instant = env.wallNowMs + skew := hclocks
  refine ⟨by simp [registeredEntry, hrunning], ?_⟩
  simp only [entryLeft, rowLeft, entryTimer, rowTimer, registeredEntry, hdeadline, hrunning,
    hentry, hrow, Option.map_map]
  refine Option.map_congr fun ms _ => ?_
  simp only [Function.comp_apply, Timer.left, Option.getD_none, hinstant]
  congr 1
  omega

end Launch

/-- A pause that outlasted its deadline is taken for a pause that has not. -/
def Timely (nowMs : Int) (r : Run) : Prop :=
  ∀ d p, r.timeoutDeadlineAtMs = some d → r.timeoutPausedAtMs = some p → nowMs ≤ max d p

/-- An adoption restores the entry that the row stands for exactly when it is timely. -/
theorem shows_adopted {cardId : Int} {socket : Option String} (hsound : Sound env.wallNowMs r)
    (hera : InEra env) (hclocks : Skewed skew env) :
    Shows skew env.wallNowMs (adoptedRun env cardId r socket) r ↔ Timely env.wallNowMs r := by
  obtain ⟨⟨hwall, hwallEra⟩, hinstant, hinstantEra⟩ := hera
  have hskew : @Eq Int env.instant (env.wallNowMs + skew) := hclocks
  -- Within an era the instants are restored exactly.
  have hpause : (adoptedRun env cardId r socket).awaitingSince = r.timeoutPausedAtMs.map
      (· + skew) := by
    simp only [adoptedRun, ActiveRun.reconstructAwaitingSince]
    refine Option.map_congr fun p hp => ?_
    obtain ⟨hp0, hpnow⟩ := hsound.paused p hp
    rw [saturatingSub, saturate_of_mem (by omega)
      (by omega), checkedInstant_of_mem (by omega) (by omega), Option.getD_some]
    show @Eq Int _ _
    omega
  have hdeadline : (adoptedRun env cardId r socket).timeoutDeadline =
      r.timeoutDeadlineAtMs.map fun d => max d env.wallNowMs + skew := by
    simp only [adoptedRun, ActiveRun.reconstructDeadline, Option.map_eq_bind]
    refine Option.bind_congr fun d hd => ?_
    obtain ⟨hd0, hdera⟩ := hsound.deadline d hd
    have hdmax : d ≤ 2 * era := by
      cases hp : r.timeoutPausedAtMs with
      | none => simp only [hp, Option.getD_none] at hdera; omega
      | some p => have := (hsound.paused p hp).2; simp only [hp, Option.getD_some] at hdera; omega
    rw [saturatingSub, saturate_of_mem (by omega)
      (by omega), checkedInstant_of_mem (by omega) (by omega)]
    refine congrArg some (show @Eq Int _ (max d env.wallNowMs + skew) from ?_)
    omega
  have htimer : entryTimer (adoptedRun env cardId r socket) =
      (rowTimer r).map fun t => (t.clamp env.wallNowMs).shift skew := by
    simp only [entryTimer, rowTimer, hpause, hdeadline, Option.map_map]
    rfl
  constructor
  · intro hshows d p hd hp
    have hleft := hshows.left
    simp only [entryLeft, rowLeft, htimer, rowTimer, hd, Option.map_some, Timer.left_shift,
      Option.some.injEq] at hleft
    refine (Timer.left_clamp fun p hp => ?_).mp hleft p hp
    exact (hsound.paused p hp).2
  · intro htimely
    refine ⟨hpause, ?_⟩
    simp only [entryLeft, rowLeft, htimer, rowTimer, Option.map_map]
    refine Option.map_congr fun d hd => ?_
    simp only [Function.comp_apply, Timer.left_shift]
    exact (Timer.left_clamp fun p hp => (hsound.paused p hp).2).mpr fun p hp => htimely d p hd hp

end HerdrBoard.Timeouts
