import HerdrBoard.Lifecycle.Timeouts
import HerdrBoard.Reconcile.Sightings
import HerdrBoard.Timeouts.Steps

/-!
# Timeouts survive pauses and restarts

The watch entry of an active run shows the time that its row does, in every state that the daemon
reaches, as long as no adoption comes upon a pause that has outlasted its deadline. A run is timed
out once it has worked for its budget. -/

open Lib HerdrBoard.Core HerdrBoard.Daemon HerdrBoard.Lifecycle

namespace HerdrBoard.Timeouts

/-! ## The daemon on a clock -/

/-- The daemon, and the wall clock at its last step. -/
structure Timed where
  world : World
  nowMs : Int

variable (cfg : Config) (skew : Int)

def Timed.next (t : Timed) (l : Label) : Timed where
  world := t.world.next cfg l
  nowMs := ((envOf l).map Env.wallNowMs).getD t.nowMs

def clocked : System Timed Label where
  init t := t.world = .start Db.fresh
  step t l t' := t' = t.next cfg l

/-- No step is earlier than the one before, and no launch has more than an era to run. -/
structure KeepsTime (t : Timed) (l : Label) : Prop where
  clock : ∀ env, envOf l = some env → t.nowMs ≤ env.wallNowMs ∧ InEra env
  launch : ∀ env claimed column handle d, l = .dispatch env (.registered claimed column handle) →
    (startDeadlines cfg env column).2 = some d → d ≤ env.wallNowMs + era

/-- Both clocks advance together, and runs are adopted once and in time. -/
structure AdoptsInTime (t : Timed) (l : Label) : Prop extends KeepsTime cfg t l where
  skewed : ∀ env, envOf l = some env → Skewed skew env
  adopts : ∀ env a, l = .adopt env (.insert a) → a ∈ t.world.adopting →
    (a.startup → t.world.daemon.sched.active.lookup a.run.id = none) ∧
    (t.world.daemon.sched.active.lookup a.run.id = none → Timely env.wallNowMs a.run)

variable {cfg skew} {t t' : Timed} {l : Label} {r r' : Run}

theorem KeepsTime.le (h : KeepsTime cfg t l) : t.nowMs ≤ (t.next cfg l).nowMs := by
  unfold Timed.next
  cases henv : envOf l with
  | none => simp
  | some env => simpa using (h.clock env henv).1

theorem nowMs_of_env {env : Env} (henv : envOf l = some env) :
    (t.next cfg l).nowMs = env.wallNowMs := by
  simp [Timed.next, henv]

/-- The lifecycle is in order, and so are the timeouts of the active runs. -/
structure SoundRuns (t : Timed) : Prop where
  inv : Inv (life t.world.daemon.db.toTables)
  sound : ∀ r ∈ t.world.daemon.db.runs, r.isActive = true → Sound t.nowMs r

theorem soundRuns_init (h : (clocked cfg).init t) : SoundRuns t := by
  have hworld : t.world = .start Db.fresh := h
  refine ⟨hworld ▸ inv_fresh, fun r hr => ?_⟩
  rw [hworld] at hr
  cases hr

/-- Every kind of step keeps the timeouts in order. -/
theorem soundRuns_next (hruns : SoundRuns t) (htime : KeepsTime cfg t l) :
    SoundRuns (t.next cfg l) := by
  refine ⟨(via_step_daemon cfg hruns.inv l).inv hruns.inv, fun r' hr' hactive => ?_⟩
  rcases row_next cfg hruns.inv hr' hactive with hrow | ⟨env, a, r, before, dec, henv, h⟩ |
    ⟨env, claimed, column, handle, run, rfl, -, -, -, hpromoted⟩
  · exact (hruns.sound r' hrow hactive).advance htime.le
  · obtain ⟨hle, hera⟩ := htime.clock env henv
    rw [nowMs_of_env henv, h.row']
    exact sound_signalled h.decided (hruns.sound r h.row h.active) hle hera
  · obtain ⟨-, hera⟩ := htime.clock env rfl
    exact sound_registered hera (fun d hd => htime.launch env claimed column handle d rfl hd)
      hpromoted.deadline hpromoted.running

/-! ## Row and entry -/

def SameTimeout (r r' : Run) : Prop :=
  r'.timeoutDeadlineAtMs = r.timeoutDeadlineAtMs ∧ r'.timeoutPausedAtMs = r.timeoutPausedAtMs

theorem SameTimeout.sound (h : SameTimeout r r') {now : Int} (hsound : Sound now r) :
    Sound now r' where
  paused p hp := hsound.paused p (h.2 ▸ hp)
  deadline d hd := by
    rw [h.2]
    exact hsound.deadline d (h.1 ▸ hd)

theorem SameTimeout.shows (h : SameTimeout r r') {now : Int} {a : ActiveRun}
    (hshows : Shows skew now a r') : Shows skew now a r where
  pause := h.2 ▸ hshows.pause
  left := by
    rw [hshows.left]
    simp only [rowLeft, rowTimer, h.1, h.2]

theorem SameTimes.shows {a a' : ActiveRun} (h : SameTimes a a') {now : Int}
    (hshows : Shows skew now a r) : Shows skew now a' r where
  pause := h.2 ▸ hshows.pause
  left := by
    rw [← hshows.left]
    simp only [entryLeft, entryTimer, h.1, h.2]

/-- Every entry shows its run's timeout, and a run about to be adopted is as it was observed. -/
structure Agreeing (skew : Int) (t : Timed) : Prop extends SoundRuns t where
  shows : ∀ r ∈ t.world.daemon.db.runs, r.isActive = true →
    ∀ a, t.world.daemon.sched.active.lookup r.id = some a → Shows skew t.nowMs a r
  observed : ∀ r ∈ t.world.daemon.db.runs, r.isActive = true →
    t.world.daemon.sched.active.lookup r.id = none →
    ∀ x ∈ t.world.adopting, x.run.id = r.id → SameTimeout r x.run

/-- An adoption is observed on the row, or was in progress. -/
theorem adopting_next {w : World} {x : Adoption} (hx : x ∈ (w.next cfg l).adopting) :
    (x ∈ w.adopting ∧ l ≠ .restart) ∨
      ((∃ env y, l = .adopt env (.observe y)) ∧ x.run ∈ w.daemon.db.runs) := by
  cases l with
  | request env y => exact .inl ⟨hx, by simp⟩
  | watch env y => exact .inl ⟨hx, by simp⟩
  | dispatch env y =>
      refine .inl ⟨?_, by simp⟩
      have hsame : (serveDispatch cfg env w y).adopting = w.adopting := by
        cases y <;> simp only [serveDispatch] <;> first | rfl | (split <;> rfl)
      exact hsame ▸ hx
  | adopt env y =>
      cases y with
      | observe y =>
          simp only [World.next, serveAdopt] at hx
          split at hx
          · next current hcurrent =>
              rcases List.mem_cons.mp hx with rfl | hx
              · exact .inr ⟨⟨env, y, rfl⟩, (Reconcile.sameOpenRun_some hcurrent).1⟩
              · exact .inl ⟨hx, by simp⟩
          · exact .inl ⟨hx, by simp⟩
      | insert y =>
          simp only [World.next, serveAdopt] at hx
          split at hx
          · exact .inl ⟨List.mem_of_mem_erase hx, by simp⟩
          · exact .inl ⟨hx, by simp⟩
  | restart => cases hx

/-- An adoption changes no entry but the one that it inserts. -/
theorem lookup_adopt {env : Env} {w : World} {y : Adopt} {k : Int} :
    (serveAdopt env w y).daemon.sched.active.lookup k = w.daemon.sched.active.lookup k ∨
      ∃ x, y = .insert x ∧ x ∈ w.adopting ∧ x.run.id = k ∧
        (x.startup = true ∨ w.daemon.sched.active.lookup k = none) ∧
        (serveAdopt env w y).daemon.sched.active.lookup k = some (x.entry env) := by
  cases y with
  | observe x =>
      left
      simp only [serveAdopt]
      split <;> rfl
  | insert x =>
      by_cases hx : x ∈ w.adopting
      · simp only [serveAdopt, if_pos hx]
        by_cases hk : k = x.run.id
        · subst hk
          split
          · next hstartup => exact .inr ⟨x, rfl, hx, rfl, .inl hstartup, AList.lookup_insert _⟩
          · unfold insertReconciled
            split
            · exact .inl rfl
            · next hnone =>
                exact .inr ⟨x, rfl, hx, rfl, .inr (by simpa using hnone), AList.lookup_insert _⟩
        · left
          split
          · exact AList.lookup_insert_ne hk
          · unfold insertReconciled
            split
            · rfl
            · exact AList.lookup_insert_ne hk
      · left
        simp only [serveAdopt, if_neg hx]

/-- A run that is not watched after a step was active before it, and not watched unless the
daemon restarted. -/
theorem unwatched_next {w : World} (hinv : Inv (life w.daemon.db.toTables))
    (hr' : r' ∈ (w.next cfg l).daemon.db.runs) (hactive : r'.isActive = true)
    (hnone : (w.next cfg l).daemon.sched.active.lookup r'.id = none) :
    r' ∈ w.daemon.db.runs ∧ (l = .restart ∨ w.daemon.sched.active.lookup r'.id = none) := by
  rcases kept_next cfg hinv hr' hactive with ⟨env, henv, hsame | ⟨r, a, before, dec, h⟩⟩ |
    ⟨env, claimed, column, handle, run, rfl, -, -, -, hpromoted⟩ | ⟨rfl | ⟨env, x, rfl⟩, hrow⟩
  · exact ⟨hsame.row, .inr (hsame.unwatched hnone)⟩
  · have hwatched := h.watched'
    rw [← h.id, hnone] at hwatched
    cases hwatched
  · obtain ⟨cardId, hwatched⟩ := hpromoted.watched
    rw [hnone] at hwatched
    cases hwatched
  · exact ⟨hrow, .inl rfl⟩
  · refine ⟨hrow, .inr ?_⟩
    rcases @lookup_adopt env w x r'.id with hsame | ⟨y, -, -, -, -, hentry⟩
    · exact hsame.symm.trans hnone
    · cases hnone.symm.trans hentry

theorem agreeing_init (h : (clocked cfg).init t) : Agreeing skew t := by
  have hworld : t.world = .start Db.fresh := h
  refine { toSoundRuns := soundRuns_init h, shows := fun r hr => ?_, observed := fun r hr => ?_ }
  all_goals
    rw [hworld] at hr
    cases hr

/-- What is observed for an adoption stays so until the run is watched. -/
theorem observed_next (hagree : Agreeing skew t) (hr' : r' ∈ (t.next cfg l).world.daemon.db.runs)
    (hactive : r'.isActive = true)
    (hnone : (t.next cfg l).world.daemon.sched.active.lookup r'.id = none)
    {x : Adoption} (hx : x ∈ (t.next cfg l).world.adopting) (hid : x.run.id = r'.id) :
    SameTimeout r' x.run := by
  obtain ⟨hrow, hunwatched⟩ := unwatched_next hagree.inv hr' hactive hnone
  rcases adopting_next hx with ⟨hx, hrestart⟩ | ⟨⟨env, y, rfl⟩, hseen⟩
  · exact hagree.observed r' hrow hactive (hunwatched.resolve_left hrestart) x hx hid
  · have hsame : x.run = r' := Table.eq_of_key_eq hseen hrow hid
    exact hsame ▸ ⟨rfl, rfl⟩

/-- An adoption in time inserts an entry that shows its run's timeout. -/
theorem shows_inserted {env : Env} {x : Adoption} (hagree : Agreeing skew t)
    (htime : AdoptsInTime cfg skew t (.adopt env (.insert x))) (hr : r ∈ t.world.daemon.db.runs)
    (hactive : r.isActive = true) (hx : x ∈ t.world.adopting) (hid : x.run.id = r.id)
    (hfree : x.startup = true ∨ t.world.daemon.sched.active.lookup r.id = none) :
    Shows skew env.wallNowMs (x.entry env) r := by
  obtain ⟨hle, hera⟩ := htime.clock env rfl
  obtain ⟨hstartup, htimely⟩ := htime.adopts env x rfl hx
  have hnone : t.world.daemon.sched.active.lookup x.run.id = none := hfree.elim hstartup (hid ▸ ·)
  have hsame : SameTimeout r x.run := hagree.observed r hr hactive (hid ▸ hnone) x hx hid
  have hsound : Sound env.wallNowMs x.run := hsame.sound ((hagree.sound r hr hactive).advance hle)
  exact hsame.shows ((shows_adopted hsound hera (htime.skewed env rfl)).mpr (htimely hnone))

theorem shows_next (hagree : Agreeing skew t) (htime : AdoptsInTime cfg skew t l)
    (hr' : r' ∈ (t.next cfg l).world.daemon.db.runs) (hactive : r'.isActive = true) {a' : ActiveRun}
    (ha' : (t.next cfg l).world.daemon.sched.active.lookup r'.id = some a') :
    Shows skew (t.next cfg l).nowMs a' r' := by
  rcases kept_next cfg hagree.inv hr' hactive with ⟨env, henv, hsame | ⟨r, a, before, dec, h⟩⟩ |
    ⟨env, claimed, column, handle, run, rfl, -, -, -, hpromoted⟩ | ⟨rfl | ⟨env, x, rfl⟩, hrow⟩
  · obtain ⟨a, ha, htimes⟩ := hsame.entry a' ha'
    exact htimes.shows ((hagree.shows r' hsame.row hactive a ha).advance htime.le)
  · obtain ⟨hle, hera⟩ := htime.clock env henv
    have hentry := h.watched'
    rw [← h.id] at hentry
    obtain rfl : pauseBookkeeping env before dec.newStatus a = a' :=
      Option.some.inj (hentry.symm.trans ha')
    rw [nowMs_of_env henv, h.row']
    exact shows_signalled h.decided h.paused (hagree.sound r h.row h.active) hle hera
      (htime.skewed env henv) (hagree.shows r h.row h.active a h.watched)
  · obtain ⟨-, hera⟩ := htime.clock env rfl
    obtain ⟨cardId, hentry⟩ := hpromoted.watched
    obtain rfl := Option.some.inj (hentry.symm.trans ha')
    exact shows_registered hera (fun d hd => htime.launch env claimed column handle d rfl hd)
      hpromoted.deadline hpromoted.running (htime.skewed env rfl)
  · cases ha'
  · rcases @lookup_adopt env t.world x r'.id with hsame | ⟨y, rfl, hy, hid, hfree, hentry⟩
    · exact (hagree.shows r' hrow hactive a' (hsame.symm.trans ha')).advance htime.le
    · obtain rfl := Option.some.inj (hentry.symm.trans ha')
      exact shows_inserted hagree htime hrow hactive hy hid hfree

theorem agreeing_next (hagree : Agreeing skew t) (htime : AdoptsInTime cfg skew t l) :
    Agreeing skew (t.next cfg l) where
  toSoundRuns := soundRuns_next hagree.toSoundRuns htime.toKeepsTime
  shows _ hr hactive _ ha := shows_next hagree htime hr hactive ha
  observed _ hr hactive hnone _ hx hid := observed_next hagree hr hactive hnone hx hid

theorem agreeing_of_reachable (h : (clocked cfg).ReachableBy (AdoptsInTime cfg skew) t) :
    Agreeing skew t :=
  h.invariant (fun _ hinit => agreeing_init hinit) fun _ _ _ hagree htime hstep =>
    hstep ▸ agreeing_next hagree htime

/-- Through pauses, restarts and adoptions, the watch entry of an active run has as much of the
timeout left as its row, and was paused when the row was. -/
theorem entries_show_rows (h : (clocked cfg).ReachableBy (AdoptsInTime cfg skew) t) :
    ∀ r ∈ t.world.daemon.db.runs, r.isActive = true →
      ∀ a, t.world.daemon.sched.active.lookup r.id = some a → Shows skew t.nowMs a r :=
    (agreeing_of_reachable h).shows

/-! ## A pause across a restart -/

def Timed.run (cfg : Config) (t : Timed) : List Label → Timed
  | [] => t
  | l :: ls => (t.next cfg l).run cfg ls

/-- Whether a step is in time, and adopts no watched run. -/
def Timed.inTime (cfg : Config) (skew : Int) (t : Timed) (l : Label) : Bool :=
  ((envOf l).all fun env => decide (t.nowMs ≤ env.wallNowMs ∧
    (0 ≤ env.wallNowMs ∧ env.wallNowMs ≤ era) ∧
    (@LE.le Int _ 0 env.instant ∧ @LE.le Int _ env.instant era) ∧
    @Eq Int env.instant (env.wallNowMs + skew))) &&
  match l with
  | .dispatch env (.registered _ column _) =>
      (startDeadlines cfg env column).2.all fun d => decide (d ≤ env.wallNowMs + era)
  | .adopt env (.insert a) =>
      (t.world.daemon.sched.active.lookup a.run.id).isNone &&
        a.run.timeoutDeadlineAtMs.all fun d => a.run.timeoutPausedAtMs.all fun p =>
          decide (env.wallNowMs ≤ max d p)
  | _ => true

theorem adoptsInTime_of_inTime (h : t.inTime cfg skew l = true) : AdoptsInTime cfg skew t l := by
  simp only [Timed.inTime, Bool.and_eq_true, Option.all_eq_true, decide_eq_true_eq] at h
  obtain ⟨henv, hstep⟩ := h
  constructor
  · constructor
    · intro env hl
      obtain ⟨hle, hwall, hinstant, -⟩ := henv env hl
      exact ⟨hle, hwall, hinstant⟩
    · rintro env claimed column handle d rfl hd
      simpa using (Option.all_eq_true _ _).mp hstep d hd
  · intro env hl
    exact (henv env hl).2.2.2
  · rintro env a rfl -
    simp only [Bool.and_eq_true, Option.isNone_iff_eq_none, Option.all_eq_true, decide_eq_true_eq]
      at hstep
    exact ⟨fun _ => hstep.1, fun _ d p hd hp => hstep.2 d hd p hp⟩

def Timed.allInTime (cfg : Config) (skew : Int) (t : Timed) : List Label → Bool
  | [] => true
  | l :: ls => t.inTime cfg skew l && (t.next cfg l).allInTime cfg skew ls

theorem reachableBy_timedRun (h : (clocked cfg).ReachableBy (AdoptsInTime cfg skew) t)
    {ls : List Label} (hls : t.allInTime cfg skew ls = true) :
    (clocked cfg).ReachableBy (AdoptsInTime cfg skew) (t.run cfg ls) := by
  induction ls generalizing t with
  | nil => exact h
  | cons l ls ih =>
      simp only [Timed.allInTime, Bool.and_eq_true] at hls
      exact ih (h.step (adoptsInTime_of_inTime hls.1) rfl) hls.2

def startOfTime : Timed := ⟨.start Db.fresh, 0⟩

def clockAt (ms : Int) : Env := { permissiveEnv with instant := ms, wallNowMs := ms }

/-- A started run awaits someone after a minute, and the daemon restarts. -/
def awaitingLabels : List Label :=
  queueOneCard ++ launchLabels oneAtATime permissiveEnv plainHandle oneQueuedCard ++
    [.watch (clockAt 60000) (.signal 1 1 .done), .restart]

/-- It is adopted after another minute. -/
def adoptedLabels : List Label :=
  awaitingLabels ++ match ((World.start Db.fresh).run oneAtATime awaitingLabels).daemon.db.run?
    1 with
    | none => []
    | some run =>
        let a : Adoption := { run, cardId := 1, socket := none, startup := true }
        [.adopt (clockAt 120000) (.observe a), .adopt (clockAt 120000) (.insert a)]

def adoptedAwaiting : Timed := startOfTime.run oneAtATime adoptedLabels

theorem entries_show_rows_adopted : ∃ r a,
    (clocked oneAtATime).ReachableBy (AdoptsInTime oneAtATime 0) adoptedAwaiting ∧
    r ∈ adoptedAwaiting.world.daemon.db.runs ∧ r.timeoutPausedAtMs = some 60000 ∧
    adoptedAwaiting.world.daemon.sched.active.lookup r.id = some a ∧
    Shows 0 adoptedAwaiting.nowMs a r := by
  have hreach : (clocked oneAtATime).ReachableBy (AdoptsInTime oneAtATime 0) adoptedAwaiting :=
    reachableBy_timedRun (t := startOfTime) (System.ReachableBy.init (S := clocked oneAtATime) rfl)
      (by decide +kernel)
  have hfacts : ((adoptedAwaiting.world.daemon.db.run? 1).any fun r => r.isActive &&
        r.timeoutPausedAtMs == some 60000) = true ∧
      (adoptedAwaiting.world.daemon.sched.active.lookup 1).isSome = true := by
    decide +kernel
  obtain ⟨hrow, hentry⟩ := hfacts
  simp only [Option.any_eq_true, Bool.and_eq_true, beq_iff_eq] at hrow
  obtain ⟨r, hfind, hactive, hpaused⟩ := hrow
  obtain ⟨a, ha⟩ := Option.isSome_iff_exists.mp hentry
  have hr : r ∈ adoptedAwaiting.world.daemon.db.runs := Table.mem_of_find? hfind
  have hid : r.id = 1 := Table.key_of_find? hfind
  have ha : adoptedAwaiting.world.daemon.sched.active.lookup r.id = some a := hid ▸ ha
  exact ⟨r, a, hreach, hr, hpaused, ha, entries_show_rows hreach r hr hactive a ha⟩

end HerdrBoard.Timeouts
