import HerdrBoard.Lifecycle.Finalization
import HerdrBoard.Timeouts.Clocks

/-!
# What a step does to a timeout

A run that is active after a step was promoted by it, or signalled, or was the same before,
entry included. -/

open Lib HerdrBoard.Core HerdrBoard.Daemon HerdrBoard.Lifecycle

namespace HerdrBoard.Timeouts

variable {cfg : Config} {env : Env} {E : Event → Prop} {db db' : Db}
    {d d' : DaemonState} {r r' : Run}

/-- The entry times out when the other does, and was paused when it was. -/
def SameTimes (a a' : ActiveRun) : Prop :=
  a'.timeoutDeadline = a.timeoutDeadline ∧ a'.awaitingSince = a.awaitingSince

/-- The run was the same, and its entry shows the same time; nothing stopped watching it. -/
structure Same (d d' : DaemonState) (r' : Run) : Prop where
  row : r' ∈ d.db.runs
  entry : ∀ a', d'.sched.active.lookup r'.id = some a' → ∃ a, d.sched.active.lookup r'.id = some a ∧
    SameTimes a a'
  unwatched : d'.sched.active.lookup r'.id = none → d.sched.active.lookup r'.id = none

/-- The run was active and watched, and a signal paused or resumed both sides. -/
structure Signalled (env : Env) (d d' : DaemonState) (r : Run) (a : ActiveRun) (before : CardStatus)
    (dec : SignalDecision) (r' : Run) : Prop where
  row : r ∈ d.db.runs
  active : r.isActive = true
  watched : d.sched.active.lookup r.id = some a
  decided : dec.newStatus = .awaiting ↔ dec.awaitingReason.isSome
  paused : r.timeoutPausedAtMs.isSome ↔ before = .awaiting
  row' : r' = signalled before dec r env.wallNowMs
  watched' : d'.sched.active.lookup r.id = some (pauseBookkeeping env before dec.newStatus a)

theorem Signalled.id {a : ActiveRun} {before : CardStatus} {dec : SignalDecision}
    (h : Signalled env d d' r a before dec r') : r'.id = r.id := by
  rw [h.row']
  rfl

def Kept (env : Env) (d d' : DaemonState) (r' : Run) : Prop :=
  Same d d' r' ∨ ∃ r a before dec, Signalled env d d' r a before dec r'

/-- Every active run after the step is kept from before it. -/
def Keeps (env : Env) (d d' : DaemonState) : Prop :=
  ∀ r' ∈ d'.db.runs, r'.isActive = true → Kept env d d' r'

/-! ## Rows -/

/-- Without a promotion or a signal, a run that is active was the same. -/
theorem row_of_via (h : Via E db db')
    (hE : ∀ e, E e → e ≠ .signal r'.id ∧ ∀ a, e ≠ .promote r'.id a)
    (hr' : r' ∈ db'.runs) (hactive : r'.isActive = true) : r' ∈ db.runs := by
  refine Lib.System.Steps.preserves (I := fun l => ∀ s ∈ l.runs, s.id = r'.id → s.isActive = true →
    s ∈ db.runs) ?_ h (fun s hs _ _ => hs) r' hr' rfl hactive
  rintro l e l' hold he (hstep : Step l e l') s hs hid hs'
  obtain ⟨hsignal, hpromote⟩ := hE e he
  rcases hstep.run_back hs with ⟨old, hmem, hev⟩ | hins
  · cases hev with
    | same => exact hold s hmem hid hs'
    | promote _ a => exact absurd (congrArg (Event.promote · a) hid) (hpromote a)
    | signal => exact absurd (congrArg Event.signal hid) hsignal
    | finish => simp [endedRun, Run.isActive] at hs'
    | hop => simp [endedRun, Run.isActive] at hs'
  · cases hins <;> simp [queuedRun, Run.isActive] at hs'

/-- Where rows are kept so and the watch entries are left alone. -/
theorem keeps_of_via (h : Via E d.db d'.db)
    (hE : ∀ e, E e → (∀ id, e ≠ .signal id) ∧ ∀ id a, e ≠ .promote id a)
    (hactive : d'.sched.active = d.sched.active) : Keeps env d d' := by
  intro r' hr' hr
  refine .inl ⟨row_of_via h (fun e he => ⟨(hE e he).1 _, (hE e he).2 _⟩) hr' hr,
    fun a' ha' => ?_, ?_⟩
  · exact ⟨a', hactive ▸ ha', rfl, rfl⟩
  · rw [hactive]
    exact id

theorem keeps_refl (d : DaemonState) :
    Keeps env d d := fun _ hr' _ => .inl ⟨hr', fun a' ha' => ⟨a', ha', rfl, rfl⟩, id⟩

theorem keeps_of_eq (hdb : d'.db = d.db) (hactive : d'.sched.active = d.sched.active) :
    Keeps env d d' := by
  intro r' hr' _
  rw [hdb] at hr'
  exact .inl ⟨hr', fun a' ha' => ⟨a', hactive ▸ ha', rfl, rfl⟩, fun hnone => hactive ▸ hnone⟩

/-! ## Watchers -/

section Watch

variable {runId : Int}

theorem keeps_finalizes {outcome : RunOutcome} {summary extraComment : Option String} {kill : Bool}
    (h : FinalizesOrNot cfg env runId outcome summary extraComment kill d d') : Keeps env d d' := by
  rcases h with rfl | ⟨run, plan, h⟩
  · exact keeps_refl _
  · intro r' hr' hactive
    have hactive' : d'.sched.active = d.sched.active.erase runId := by
      rw [h.settled]
      rfl
    have hne : r'.id ≠ runId := by
      rintro rfl
      obtain ⟨effects, huow⟩ := h.committed
      obtain ⟨ended, hfind, -, hmem, -⟩ := finalizeRunUow_ends huow
      have hid : ended.id = r'.id := Table.key_of_find? hfind
      rw [Table.eq_of_key_eq hr' hmem hid.symm] at hactive
      simp [endedRun, Run.isActive] at hactive
    refine .inl ⟨?_, fun a' ha' => ?_, fun hnone => ?_⟩
    · refine row_of_via (E := fun e => e = .finish runId ∨ ∃ next, e = .hop runId next) ?_
        ?_ hr' hactive
      · exact h.via (.inl rfl) fun next _ => .inr ⟨next, rfl⟩
      · rintro e (rfl | ⟨next, rfl⟩) <;> simp
    · rw [hactive', AList.lookup_erase_ne hne] at ha'
      exact ⟨a', ha', rfl, rfl⟩
    · rwa [hactive', AList.lookup_erase_ne hne] at hnone

theorem keeps_applySignalGuarded (hinv : Inv (life d.db.toTables)) (runId cardId : Int)
    (signal : AgentSignal)
    (guard : SignalGuard) : Keeps env d (applySignalGuarded env runId cardId signal guard d) := by
  rcases @applySignalGuarded_cases env runId cardId signal guard d with h | ⟨a, run, card, dec, h⟩
  · rw [h]
    exact keeps_refl d
  · intro r' hr' hactive'
    obtain ⟨c, hwrite⟩ := h.written
    obtain ⟨-, -, hdec⟩ := decideSignal_some h.decided
    have hrun : run ∈ d.db.runs := Table.mem_of_find? h.foundRun
    have hid : run.id = runId := Table.key_of_find? h.foundRun
    have hcardId : card.id = cardId := Table.key_of_find? h.foundCard
    have hfit : Fits run card.status :=
      fits_card hinv hrun (isOpen_of_isActive h.isActive) (h.runCard ▸ h.foundCard)
    have hlife := life_writeSignal hrun h.isActive (h.runCard.trans hcardId.symm) hdec hwrite
    have hrows := rewrites_signal (l := life d.db.toTables) run dec.newStatus dec.awaitingReason
      (signalTimeout card.status dec run env.wallNowMs).1
        (signalTimeout card.status dec run env.wallNowMs).2
    rw [← hlife] at hrows
    have hsched : (applySignalGuarded env runId cardId signal guard d).sched.active =
        d.sched.active.insert runId (pauseBookkeeping env card.status dec.newStatus a) := by
      rw [h.settled]
    obtain ⟨s, hs, hsr⟩ := hrows.mem_iff.mp hr'
    by_cases hsid : s.id = run.id
    · rw [if_pos hsid] at hsr
      have hsrun : s = run := Table.eq_of_key_eq hs hrun hsid
      subst hsrun
      exact .inr ⟨s, a, card.status, dec,
        { row := hs
          active := h.isActive
          watched := hid ▸ h.watched
          decided := hdec
          paused := hfit.paused
          row' := hsr.symm
          watched' := by rw [hsched, hid, AList.lookup_insert] }⟩
    · rw [if_neg hsid] at hsr
      subst hsr
      have hne : s.id ≠ runId := fun heq => hsid (heq.trans hid.symm)
      refine .inl ⟨hs, fun a' ha' => ?_, fun hnone => ?_⟩
      · rw [hsched, AList.lookup_insert_ne hne] at ha'
        exact ⟨a', ha', rfl, rfl⟩
      · rwa [hsched, AList.lookup_insert_ne hne] at hnone

theorem keeps_setIdle (runId : Int) (idleSince : Option Instant) (d : DaemonState) :
    Keeps env d (setIdle runId idleSince d) := by
  unfold setIdle
  cases ha : d.sched.active.lookup runId with
  | none => exact keeps_refl d
  | some a =>
      intro r' hr' _
      refine .inl ⟨hr', fun a' ha' => ?_, fun hnone => ?_⟩
      · by_cases hid : r'.id = runId
        · rw [hid, AList.lookup_insert] at ha'
          cases ha'
          exact ⟨a, hid ▸ ha, rfl, rfl⟩
        · rw [AList.lookup_insert_ne hid] at ha'
          exact ⟨a', ha', rfl, rfl⟩
      · by_cases hid : r'.id = runId
        · rw [hid, AList.lookup_insert] at hnone
          cases hnone
        · rwa [AList.lookup_insert_ne hid] at hnone

theorem keeps_armIdle (runId : Int) (d : DaemonState) : Keeps env d (armIdle env runId d) := by
  unfold armIdle
  cases d.sched.active.lookup runId with
  | none => exact keeps_refl d
  | some a =>
      dsimp only
      split
      · exact keeps_refl d
      · exact keeps_setIdle runId _ d

/-- Only a run that is no longer open is forgotten. -/
theorem keeps_forget (runId : Int) (d : DaemonState) : Keeps env d
    (if runOpen d runId then d else { d with sched.active := d.sched.active.erase runId }) := by
  split
  · exact keeps_refl d
  · next hclosed =>
      intro r' hr' hactive
      have hr : r' ∈ d.db.runs := hr'
      have hne : r'.id ≠ runId := by
        rintro rfl
        have hfind : d.db.run? r'.id = some r' := Table.find?_key hr
        exact hclosed (by simp [runOpen, hfind, hactive])
      refine .inl ⟨hr', fun a' ha' => ?_, fun hnone => ?_⟩
      · rw [AList.lookup_erase_ne hne] at ha'
        exact ⟨a', ha', rfl, rfl⟩
      · rwa [AList.lookup_erase_ne hne] at hnone

theorem keeps_watch (hinv : Inv (life d.db.toTables)) (x : Watch) :
    Keeps env d (serveWatch cfg env d x) := by
  cases x with
  | finalizeRun runId outcome summary extra kill transition =>
      exact keeps_finalizes (finalizeRun_cases d)
  | candidate c now =>
      show Keeps env d (applyCandidate cfg env c now d)
      unfold applyCandidate
      split
      · exact keeps_finalizes (finalizeRunInner_cases _ d)
      · split
        · exact keeps_applySignalGuarded hinv _ _ _ _
        · exact keeps_refl d
  | signal runId cardId signal => exact keeps_applySignalGuarded hinv _ _ _ _
  | clearIdle runId => exact keeps_setIdle runId none d
  | armIdle runId => exact keeps_armIdle runId d
  | forget runId => exact keeps_forget runId d

end Watch

theorem keeps_request (d : DaemonState) (x : Request) : Keeps env d (serveRequest cfg env d x) := by
  obtain ⟨hvia, hactive⟩ := @served_request cfg env d x
  refine keeps_of_via hvia (fun e he => ?_) hactive
  cases he <;> simp

/-! ## Launches -/

/-- The run was promoted with the deadline of its column, and is watched since. -/
structure Promoted (cfg : Config) (env : Env) (d' : DaemonState) (column : Column)
    (handle : RuntimeHandle) (r' : Run) : Prop where
  deadline : r'.timeoutDeadlineAtMs = (startDeadlines cfg env column).2
  running : r'.timeoutPausedAtMs = none
  watched : ∃ cardId, d'.sched.active.lookup r'.id =
    some (registeredEntry cardId handle env.instant (startDeadlines cfg env column).1)

theorem kept_registers {runId : Int} {handle : RuntimeHandle} {column : Column} {run : Run}
    (h : Registers env runId handle env.instant (startDeadlines cfg env column).1
      (startDeadlines cfg env column).2 run
      d d') (hr' : r' ∈ d'.db.runs) : Same d d' r' ∨
      (run.isQueued = true ∧ run ∈ d.db.runs ∧ r'.id = run.id ∧
        Promoted cfg env d' column handle r') := by
  have hrun : run ∈ d.db.runs := Table.mem_of_find? h.found
  have hid : run.id = runId := Table.key_of_find? h.found
  have hsched : d'.sched.active = d.sched.active.insert runId
      (registeredEntry run.cardId handle env.instant (startDeadlines cfg env column).1) := by
    rw [h.settled]
  have hrows := rewrites_promote (l := life d.db.toTables) run
    (launchOfHandle env handle (startDeadlines cfg env column).2)
  rw [← h.promoted] at hrows
  obtain ⟨s, hs, hsr⟩ := hrows.mem_iff.mp hr'
  by_cases hsid : s.id = run.id
  · rw [if_pos hsid] at hsr
    subst hsr
    refine .inr ⟨h.isQueued, hrun, hsid, rfl, rfl, run.cardId, ?_⟩
    rw [hsched]
    have hkey : (launchOfHandle env handle (startDeadlines cfg env column).2 |>.start s).id =
        runId := hsid.trans hid
    rw [hkey, AList.lookup_insert]
  · rw [if_neg hsid] at hsr
    subst hsr
    have hne : s.id ≠ runId := fun heq => hsid (heq.trans hid.symm)
    refine .inl ⟨hs, fun a' ha' => ?_, fun hnone => ?_⟩
    · rw [hsched, AList.lookup_insert_ne hne] at ha'
      exact ⟨a', ha', rfl, rfl⟩
    · rwa [hsched, AList.lookup_insert_ne hne] at hnone

/-- What a launch step other than a registration does is no concern of the timeouts. -/
theorem kept_dispatch (w : World) (x : Dispatch) {r' : Run}
    (hr' : r' ∈ (serveDispatch cfg env w x).daemon.db.runs)
    (hactive : r'.isActive = true) : Kept env w.daemon (serveDispatch cfg env w x).daemon r' ∨
      ∃ claimed column handle run, x = .registered claimed column handle ∧ run.isQueued = true ∧
        run ∈ w.daemon.db.runs ∧ r'.id = run.id ∧
        Promoted cfg env (serveDispatch cfg env w x).daemon column handle r' := by
  cases x with
  | readActive =>
      have hdaemon : (serveDispatch cfg env w .readActive).daemon = w.daemon := by
        simp only [serveDispatch]
        split <;> rfl
      exact .inl (keeps_of_eq (by rw [hdaemon]) (by rw [hdaemon]) r' hr' hactive)
  | claim =>
      have hdaemon : (serveDispatch cfg env w .claim).daemon = w.daemon := by
        simp only [serveDispatch]
        cases w.pass <;> rfl
      exact .inl (keeps_of_eq (by rw [hdaemon]) (by rw [hdaemon]) r' hr' hactive)
  | registered claimed column handle =>
      by_cases hclaimed : claimed ∈ w.launching
      · simp only [serveDispatch, if_pos hclaimed] at hr' ⊢
        rcases registerSpawnedRun_cases env claimed.1.id handle env.instant
            (startDeadlines cfg env column).1
          (startDeadlines cfg env column).2 w.daemon with h | ⟨run, h⟩
        · rw [h] at hr' ⊢
          have hkeeps : Keeps env w.daemon (w.daemon.kill handle) := keeps_of_eq rfl rfl
          exact .inl (hkeeps r' hr' hactive)
        · rcases kept_registers h hr' with hsame | ⟨hqueued, hrun, hid, hpromoted⟩
          · exact .inl (.inl hsame)
          · exact .inr ⟨claimed, column, handle, run, rfl, hqueued, hrun, hid, hpromoted⟩
      · simp only [serveDispatch, if_neg hclaimed] at hr' ⊢
        exact .inl (keeps_refl w.daemon r' hr' hactive)
  | failed claimed reason =>
      by_cases hclaimed : claimed ∈ w.launching
      · simp only [serveDispatch, if_pos hclaimed] at hr' ⊢
        obtain ⟨hvia, hsched⟩ :=
          @served_failQueuedRun env (· = .finish claimed.1.id) claimed.1.id reason w.daemon rfl
        exact .inl (keeps_of_via hvia (fun e he => by simp [he]) hsched r' hr' hactive)
      · simp only [serveDispatch, if_neg hclaimed] at hr' ⊢
        exact .inl (keeps_refl w.daemon r' hr' hactive)
  | abandoned claimed => exact .inl (keeps_refl w.daemon r' hr' hactive)
  | warned cardId body =>
      obtain ⟨hvia, hsched⟩ := served_keeps (E := fun _ => False)
        (keeps_addComment commentBlind_life env.conn cardId "system" body) w.daemon
      exact .inl (keeps_of_via hvia (fun _ h => h.elim) hsched r' hr' hactive)

/-! ## Every step -/

/-- What a step takes from outside. -/
def envOf : Label → Option Env
  | .request env _ => some env
  | .watch env _ => some env
  | .dispatch env _ => some env
  | .adopt env _ => some env
  | .restart => none

/-- Where a run that is active after a step comes from, unless an adoption or a restart
watches it anew. -/
theorem kept_next (cfg : Config) {w : World} (hinv : Inv (life w.daemon.db.toTables)) {l : Label}
    {r' : Run} (hr' : r' ∈ (w.next cfg l).daemon.db.runs) (hactive : r'.isActive = true) :
    (∃ env, envOf l = some env ∧ Kept env w.daemon (w.next cfg l).daemon r') ∨
    (∃ env claimed column handle run, l = .dispatch env (.registered claimed column handle) ∧
      run.isQueued = true ∧
      run ∈ w.daemon.db.runs ∧ r'.id = run.id ∧
      Promoted cfg env (w.next cfg l).daemon column handle r') ∨
    ((l = .restart ∨ ∃ env x, l = .adopt env x) ∧ r' ∈ w.daemon.db.runs) := by
  cases l with
  | request env x => exact .inl ⟨env, rfl, keeps_request w.daemon x r' hr' hactive⟩
  | watch env x => exact .inl ⟨env, rfl, keeps_watch hinv x r' hr' hactive⟩
  | dispatch env x =>
      rcases kept_dispatch w x hr' hactive with hkept | ⟨claimed, column, handle, run, rfl, h⟩
      · exact .inl ⟨env, rfl, hkept⟩
      · exact .inr (.inl ⟨env, claimed, column, handle, run, rfl, h⟩)
  | adopt env x =>
      have hrow : r' ∈ (serveAdopt env w x).daemon.db.runs := hr'
      rw [adopt_db] at hrow
      exact .inr (.inr ⟨.inr ⟨env, x, rfl⟩, hrow⟩)
  | restart => exact .inr (.inr ⟨.inl rfl, hr'⟩)

/-- The row alone: it is the old one, a signal paused or resumed it, or it was queued. -/
theorem row_next (cfg : Config) {w : World} (hinv : Inv (life w.daemon.db.toTables)) {l : Label}
    {r' : Run} (hr' : r' ∈ (w.next cfg l).daemon.db.runs) (hactive : r'.isActive = true) :
    r' ∈ w.daemon.db.runs ∨
    (∃ env a r before dec, envOf l = some env ∧
      Signalled env w.daemon (w.next cfg l).daemon r a before dec r') ∨
    (∃ env claimed column handle run, l = .dispatch env (.registered claimed column handle) ∧
      run.isQueued = true ∧
      run ∈ w.daemon.db.runs ∧ r'.id = run.id ∧
      Promoted cfg env (w.next cfg l).daemon column handle r') := by
  rcases kept_next cfg hinv hr' hactive with
      ⟨env, henv, hsame | ⟨r, a, before, dec, h⟩⟩ | hpromoted | ⟨-, hrow⟩
  · exact .inl hsame.row
  · exact .inr (.inl ⟨env, a, r, before, dec, henv, h⟩)
  · exact .inr (.inr hpromoted)
  · exact .inl hrow

end HerdrBoard.Timeouts
