import HerdrBoard.Daemon.Reconcile
import HerdrBoard.Lifecycle.Launches

/-!
# Runs and their watch entries

A started run stays the run it is, on the pane it is on, until its card is deleted. A watch entry
stays on its pane until a registration or an adoption writes another. -/

open Lib HerdrBoard.Core HerdrBoard.Daemon HerdrBoard.Lifecycle

namespace HerdrBoard.Reconcile

variable {cfg : Config} {env : Env} {E : Event → Prop} {db db' : Db}
    {d d' d'' : DaemonState} {r r' : Run}

/-! ## Started runs -/

/-- `r'` is the run `r`, and started. -/
structure SameRun (r r' : Run) : Prop where
  id : r'.id = r.id
  card : r'.cardId = r.cardId
  session : r'.session = r.session
  pane : r'.herdrPaneId = r.herdrPaneId
  started : r'.startedAt.isSome

theorem SameRun.refl (hstarted : r.startedAt.isSome) : SameRun r r := ⟨rfl, rfl, rfl, rfl, hstarted⟩

theorem SameRun.trans {r'' : Run} (h : SameRun r r') (h' : SameRun r' r'') : SameRun r r'' :=
  ⟨h'.id.trans h.id, h'.card.trans h.card, h'.session.trans h.session,
    h'.pane.trans h.pane, h'.started⟩

theorem sameRun_of_evolves {e : Event} (h : RunEvolves e r r') (hstarted : r.startedAt.isSome) :
    SameRun r r' := by
  cases h with
  | same => exact .refl hstarted
  | promote _ a hqueued =>
      simp only [Run.isQueued, Bool.and_eq_true, Option.isNone_iff_eq_none] at hqueued
      simp [hqueued.1] at hstarted
  | signal => exact ⟨rfl, rfl, rfl, rfl, hstarted⟩
  | finish => exact ⟨rfl, rfl, rfl, rfl, hstarted⟩
  | hop => exact ⟨rfl, rfl, rfl, rfl, hstarted⟩

/-- The events all delete cards, or none does. -/
def DeletesOrKeeps (E : Event → Prop) : Prop :=
  (∀ id, ¬E (.remove id)) ∨ ∀ e, E e → ∃ id, e = .remove id

theorem sameRun_of_via (h : Via E db db') (hE : DeletesOrKeeps E) (hr : r ∈ db.runs)
    (hstarted : r.startedAt.isSome) (hr' : r' ∈ db'.runs) (hid : r'.id = r.id) : SameRun r r' := by
  cases hE with
  | inl hkeep =>
      obtain ⟨kept, hkept, hsame⟩ : ∃ kept ∈ db'.runs, SameRun r kept := by
        refine Lib.System.Steps.preserves (I := fun l => ∃ kept ∈ l.runs, SameRun r kept) ?_ h
          ⟨r, hr, .refl hstarted⟩
        rintro l e l' ⟨kept, hkept, hsame⟩ he (hstep : Step l e l')
        obtain ⟨next, hnext, hev⟩ := hstep.run_forth hkept fun heq => hkeep _ (heq ▸ he)
        exact ⟨next, hnext, hsame.trans (sameRun_of_evolves hev hsame.started)⟩
      rwa [Table.eq_of_key_eq hr' hkept (hid.trans hsame.id.symm)]
  | inr hdelete =>
      have hold : ∀ kept ∈ db'.runs, kept ∈ db.runs := by
        refine Lib.System.Steps.preserves (I := fun l => ∀ kept ∈ l.runs, kept ∈ db.runs) ?_
          h fun _ => id
        intro l e l' hold he hstep kept hkept
        have hstep : Step l e l' := hstep
        obtain ⟨id, rfl⟩ := hdelete e he
        rcases hstep.run_back hkept with ⟨old, hmem, hev⟩ | hins
        · cases hev
          exact hold _ hmem
        · cases hins
      rw [Table.eq_of_key_eq (hold r' hr') hr hid]
      exact .refl hstarted

theorem deletesOrKeeps_step (cfg : Config) (db : Db) (l : Label) :
    DeletesOrKeeps (StepCauses cfg db l) := by
  by_cases hdelete : ∃ env id, l = .request env (.cardDelete id)
  · obtain ⟨env, id, rfl⟩ := hdelete
    refine .inr fun e he => ?_
    cases stepCauses_request.mp he
    exact ⟨id, rfl⟩
  · refine .inl fun id he => hdelete ?_
    cases he with
    | request env x _ h =>
        cases h with
        | remove => exact ⟨env, id, rfl⟩
    | watch env x _ h => cases h

theorem deletesOrKeeps_watch (x : Watch) : DeletesOrKeeps (WatchCauses cfg env db x) :=
  .inl fun _ h => nomatch h

/-! ## Watch entries -/

/-- The entry is on the pane it was on, under the same handle. -/
def SameWatch (a a' : ActiveRun) : Prop := a'.paneId = a.paneId ∧ a'.handle = a.handle

/-- Every watch entry was there before, on the same pane. -/
def KeepsWatch (d d' : DaemonState) : Prop :=
  ∀ k a', d'.sched.active.lookup k = some a' → ∃ a, d.sched.active.lookup k = some a ∧
    SameWatch a a'

theorem keepsWatch_of_active (h : d'.sched.active = d.sched.active) : KeepsWatch d d' :=
  fun _ a' ha => ⟨a', h ▸ ha, rfl, rfl⟩

theorem keepsWatch_refl (d : DaemonState) : KeepsWatch d d := keepsWatch_of_active rfl

/-- Rewriting an entry that is there. -/
theorem keepsWatch_rewrite {k : Int} {a b : ActiveRun} (ha : d.sched.active.lookup k = some a)
    (hab : SameWatch a b)
    (hactive : d'.sched.active = d.sched.active.insert k b) : KeepsWatch d d' := by
  intro k' a' ha'
  rw [hactive] at ha'
  by_cases hk : k' = k
  · cases hk
    rw [AList.lookup_insert] at ha'
    cases ha'
    exact ⟨a, ha, hab⟩
  · rw [AList.lookup_insert_ne hk] at ha'
    exact ⟨a', ha', rfl, rfl⟩

theorem keepsWatch_erase {k : Int} (hactive : d'.sched.active = d.sched.active.erase k) :
    KeepsWatch d d' := by
  intro k' a' ha'
  rw [hactive] at ha'
  by_cases hk : k' = k
  · cases hk
    simp at ha'
  · rw [AList.lookup_erase_ne hk] at ha'
    exact ⟨a', ha', rfl, rfl⟩

theorem sameWatch_pauseBookkeeping (env : Env) (before after : CardStatus) (a : ActiveRun) :
    SameWatch a (pauseBookkeeping env before after a) := by
  unfold pauseBookkeeping ActiveRun.enterAwaiting ActiveRun.leaveAwaiting
  split
  · exact ⟨rfl, rfl⟩
  · split
    · split <;> exact ⟨rfl, rfl⟩
    · exact ⟨rfl, rfl⟩

theorem keepsWatch_finalizes {runId : Int} {outcome : RunOutcome}
    {summary extraComment : Option String} {kill : Bool}
    (h : FinalizesOrNot cfg env runId outcome summary extraComment kill d d') :
    KeepsWatch d d' := by
  rcases h with rfl | ⟨run, plan, h⟩
  · exact keepsWatch_refl _
  · refine @keepsWatch_erase _ _ runId ?_
    rw [h.settled]
    rfl

theorem keepsWatch_signal (runId cardId : Int) (signal : AgentSignal) (guard : SignalGuard)
    (d : DaemonState) : KeepsWatch d (applySignalGuarded env runId cardId signal guard d) := by
  rcases @applySignalGuarded_cases env runId cardId signal guard d with
      h | ⟨active, _, card, dec, h⟩
  · rw [h]
    exact keepsWatch_refl d
  · refine keepsWatch_rewrite h.watched
      (sameWatch_pauseBookkeeping env card.status dec.newStatus active) ?_
    rw [h.settled]

theorem keepsWatch_setIdle (runId : Int) (idleSince : Option Instant) (d : DaemonState) :
    KeepsWatch d (setIdle runId idleSince d) := by
  unfold setIdle
  cases ha : d.sched.active.lookup runId with
  | none => exact keepsWatch_refl d
  | some a => exact @keepsWatch_rewrite d _ runId a { a with idleSince } ha ⟨rfl, rfl⟩ rfl

theorem keepsWatch_armIdle (runId : Int) (d : DaemonState) :
    KeepsWatch d (armIdle env runId d) := by
  unfold armIdle
  cases d.sched.active.lookup runId with
  | none => exact keepsWatch_refl d
  | some a =>
      simp only
      split
      · exact keepsWatch_refl d
      · exact keepsWatch_setIdle runId _ d

theorem keepsWatch_watch (d : DaemonState) (x : Watch) : KeepsWatch d (serveWatch cfg env d x) := by
  cases x with
  | finalizeRun runId outcome summary extra kill transition =>
      exact keepsWatch_finalizes (finalizeRun_cases d)
  | candidate c now =>
      show KeepsWatch d (applyCandidate cfg env c now d)
      unfold applyCandidate
      split
      · exact keepsWatch_finalizes (finalizeRunInner_cases _ d)
      · split
        · exact keepsWatch_signal _ _ _ _ d
        · exact keepsWatch_refl d
  | signal runId cardId signal => exact keepsWatch_signal _ _ _ _ d
  | clearIdle runId => exact keepsWatch_setIdle runId none d
  | armIdle runId => exact keepsWatch_armIdle runId d
  | forget runId =>
      show KeepsWatch d (if runOpen d runId then d else _)
      split
      · exact keepsWatch_refl d
      · exact @keepsWatch_erase _ _ runId rfl

/-- A registration keeps the watch entries, or adds that of the run it promotes. -/
theorem watch_registered (w : World) (env : Env) (claimed : Run × Card) (column : Column)
    (handle : RuntimeHandle) :
    (KeepsWatch w.daemon (w.next cfg (.dispatch env (.registered claimed column handle))).daemon ∧
      (w.next cfg (.dispatch env (.registered claimed column handle))).daemon.db = w.daemon.db ∧
      registers cfg w (.dispatch env (.registered claimed column handle)) = none) ∨
    (registers cfg w (.dispatch env (.registered claimed column handle)) = some claimed.1.id ∧
      ∃ run deadline deadlineAtMs,
        Registers env claimed.1.id handle env.instant deadline deadlineAtMs run w.daemon
        (w.next cfg (.dispatch env (.registered claimed column handle))).daemon) := by
  by_cases hclaimed : claimed ∈ w.launching
  · have hnext : (w.next cfg (.dispatch env (.registered claimed column handle))).daemon =
        finalState (registerSpawnedRun env claimed.1.id handle env.instant
          (startDeadlines cfg env column).1 (startDeadlines cfg env column).2 w.daemon) := by
      simp only [World.next, serveDispatch, if_pos hclaimed]
    rw [hnext]
    simp only [registers, registerSpawnedRun, if_pos hclaimed]
    rcases tryRegister_cases env claimed.1.id handle env.instant (startDeadlines cfg env column).1
      (startDeadlines cfg env column).2 w.daemon with ⟨e, h⟩ | h | ⟨run, d, h, hreg⟩
    · simp only [h]
      exact .inl ⟨keepsWatch_of_active rfl, rfl, trivial⟩
    · simp only [h]
      exact .inl ⟨keepsWatch_of_active rfl, rfl, trivial⟩
    · simp only [h]
      exact .inr ⟨trivial, run, _, _, hreg⟩
  · have hnext : (w.next cfg (.dispatch env (.registered claimed column handle))) = w := by
      simp only [World.next, serveDispatch, if_neg hclaimed]
    rw [hnext]
    refine .inl ⟨keepsWatch_refl _, rfl, ?_⟩
    simp only [registers, if_neg hclaimed]
    split <;> rfl

theorem keepsWatch_next (w : World) (l : Label) (hadopt : ∀ env x, l ≠ .adopt env x)
    (hregister : ∀ env claimed column handle,
      l ≠ .dispatch env (.registered claimed column handle)) :
    KeepsWatch w.daemon (w.next cfg l).daemon := by
  cases l with
  | request env r => exact keepsWatch_of_active (served_request w.daemon r).2
  | watch env x => exact keepsWatch_watch w.daemon x
  | dispatch env x =>
      show KeepsWatch w.daemon (serveDispatch cfg env w x).daemon
      cases x with
      | readActive =>
          simp only [serveDispatch]
          split <;> exact keepsWatch_refl _
      | claim =>
          simp only [serveDispatch]
          cases w.pass <;> exact keepsWatch_refl _
      | registered claimed column handle => exact absurd rfl (hregister env claimed column handle)
      | failed claimed reason =>
          simp only [serveDispatch]
          split
          · exact keepsWatch_of_active
              (served_failQueuedRun (E := fun _ => True) claimed.1.id reason w.daemon trivial).2
          · exact keepsWatch_refl _
      | abandoned claimed => exact keepsWatch_refl _
      | warned cardId body =>
          have hkept : KeepsStored life (store (addComment env.conn cardId "system" body)) :=
            keepsStored_store (keeps_addComment commentBlind_life _ _ _ _)
          exact keepsWatch_of_active (congrArg Prod.snd (hkept w.daemon))
  | adopt env x => exact absurd rfl (hadopt env x)
  | restart =>
      intro k a h
      cases h

theorem registers_none {w : World} {l : Label}
    (hregister : ∀ env claimed column handle,
    l ≠ .dispatch env (.registered claimed column handle)) : registers cfg w l = none := by
  unfold registers
  split
  · next env claimed column handle => exact absurd rfl (hregister env claimed column handle)
  · rfl

end HerdrBoard.Reconcile
