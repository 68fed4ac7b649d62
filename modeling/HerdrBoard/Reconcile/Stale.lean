import HerdrBoard.Reconcile.Gone

/-!
# Sightings older than a run

An event is routed by its pane when it is applied. It spares the runs registered after it was seen
as long as no event of a pane is in flight when a run is registered on it. -/

open Lib HerdrBoard.Core HerdrBoard.Daemon HerdrBoard.Lifecycle

namespace HerdrBoard.Reconcile

variable {cfg : Config} {env : Env} {defaultSocket : String} {E : Event → Prop} {db db' : Db}
  {d d' : DaemonState} {l l' : Life} {e : Event} {k : Int} {run : Run} {s : Reconciling}

/-! ## Other runs -/

/-- Signals and finalizations of one run. -/
inductive Concerns (k : Int) : Event → Prop
  | signal : Concerns k (.signal k)
  | finish : Concerns k (.finish k)
  | hop (next : EnqueueRun) : Concerns k (.hop k next)

theorem find?_setCard {id cardId : Int} {f : CardState → CardState}
    (hf : ∀ c, Keyed.key (f c) = Keyed.key c) (hne : cardId ≠ id) :
    (l.setCard id f hf).find? cardId = l.cards.find? cardId := by
  rw [Life.setCard, Table.find?_update]
  cases hfind : l.cards.find? cardId with
  | none => rfl
  | some c =>
      have hid : c.id = cardId := Table.key_of_find? hfind
      simp [hid, hne]

theorem card_ne_of_open {other : Run} (hinv : Inv l) (hrun : run ∈ l.runs)
    (hopen : run.isOpen = true)
    (hother : other ∈ l.runs) (hotherOpen : other.isOpen = true) (hne : other.id ≠ run.id) :
    run.cardId ≠ other.cardId := by
  intro hcard
  have hsame := (hinv.openRun hrun hopen).unique other hother hcard.symm hotherOpen
  exact hne (congrArg Run.id hsame)

/-- What concerns another run leaves an open run and its card alone. -/
theorem step_spares (h : Step l e l') (hinv : Inv l) (he : Concerns k e) (hrun : run ∈ l.runs)
    (hopen : run.isOpen = true)
    (hne : k ≠ run.id) : run ∈ l'.runs ∧ l'.cards.find? run.cardId = l.cards.find? run.cardId := by
  cases he with
  | signal =>
      cases h with
      | signal other status reason deadline paused hother hactive =>
          have hcard := card_ne_of_open hinv hrun hopen hother (isOpen_of_isActive hactive) hne
          refine ⟨?_, find?_setCard (by intro c; rfl) hcard⟩
          exact (rewrites_signal other status reason deadline paused).mem_iff.mpr
            ⟨run, hrun, if_neg hne.symm⟩
  | finish =>
      cases h with
      | finish other now outcome summary status hother hotherOpen =>
          have hcard := card_ne_of_open hinv hrun hopen hother hotherOpen hne
          refine ⟨?_, find?_setCard (by intro c; rfl) hcard⟩
          exact (rewrites_finish other now outcome summary status).mem_iff.mpr
            ⟨run, hrun, if_neg hne.symm⟩
  | hop next =>
      cases h with
      | hop other now outcome summary _ hother hotherOpen =>
          have hcard := card_ne_of_open hinv hrun hopen hother hotherOpen hne
          refine ⟨Life.mem_hop.mpr (.inl ?_), find?_setCard (by intro c; rfl) hcard⟩
          exact (rewrites_endRun other now outcome summary).mem_iff.mpr ⟨run, hrun, if_neg hne.symm⟩

theorem via_spares (h : Via (Concerns k) db db') (hinv : Inv (life db.toTables))
    (hrun : run ∈ db.runs) (hopen : run.isOpen = true) (hne : k ≠ run.id) :
    run ∈ db'.runs ∧ (db'.card? run.cardId).map cardState = (db.card? run.cardId).map
      cardState := by
  have hkept : Inv (life db'.toTables) ∧ run ∈ (life db'.toTables).runs ∧
      (life db'.toTables).cards.find? run.cardId = (life db.toTables).cards.find? run.cardId := by
    refine Lib.System.Steps.preserves (I := fun l => Inv l ∧ run ∈ l.runs ∧
      l.cards.find? run.cardId = (life db.toTables).cards.find? run.cardId) ?_ h ⟨hinv, hrun, rfl⟩
    intro l e l' ⟨hinv, hrun, hcard⟩ he (hstep : Step l e l')
    obtain ⟨hrun', hcard'⟩ := step_spares hstep hinv he hrun hopen hne
    exact ⟨hstep.inv hinv, hrun', hcard'.trans hcard⟩
  obtain ⟨-, hrun', hcard⟩ := hkept
  simp only [life_cards, find?_cardStates] at hcard
  exact ⟨hrun', hcard⟩

/-- The run, its card and its watch entry are as they were. -/
structure Spares (run : Run) (d d' : DaemonState) : Prop where
  row : run ∈ d'.db.runs
  card : (d'.db.card? run.cardId).map cardState = (d.db.card? run.cardId).map cardState
  entry : d'.sched.active.lookup run.id = d.sched.active.lookup run.id

theorem Spares.refl (hrun : run ∈ d.db.runs) : Spares run d d := ⟨hrun, rfl, rfl⟩

theorem Spares.of_db (hrun : run ∈ d.db.runs) (hdb : d'.db = d.db)
    (hentry : d'.sched.active.lookup run.id = d.sched.active.lookup run.id) : Spares run d d' := by
  refine ⟨?_, ?_, hentry⟩
  · rw [hdb]
    exact hrun
  · rw [hdb]

theorem spares_setIdle (idleSince : Option Instant) (hrun : run ∈ d.db.runs) (hne : k ≠ run.id) :
    Spares run d (setIdle k idleSince d) := by
  refine .of_db hrun (setIdle_db k idleSince) ?_
  unfold setIdle
  cases d.sched.active.lookup k with
  | none => rfl
  | some a => exact AList.lookup_insert_ne hne.symm

theorem spares_armIdle (hrun : run ∈ d.db.runs) (hne : k ≠ run.id) :
    Spares run d (armIdle env k d) := by
  unfold armIdle
  cases d.sched.active.lookup k with
  | none => exact .refl hrun
  | some a =>
      simp only
      split
      · exact .refl hrun
      · exact spares_setIdle _ hrun hne

theorem spares_applySignal (hinv : Inv (life d.db.toTables)) (cardId : Int) (signal : AgentSignal)
    (hrun : run ∈ d.db.runs) (hopen : run.isOpen = true) (hne : k ≠ run.id) :
    Spares run d (applySignal env k cardId signal d) := by
  have hvia : Via (Concerns k) d.db (applySignal env k cardId signal d).db :=
    via_applySignalGuarded hinv .signal
  obtain ⟨hrow, hcard⟩ := via_spares hvia hinv hrun hopen hne
  refine ⟨hrow, hcard, ?_⟩
  rcases applySignalGuarded_cases k cardId signal .none d with h | ⟨active, other, card, dec, h⟩
  · rw [applySignal, h]
  · rw [applySignal, h.settled]
    exact AList.lookup_insert_ne hne.symm

theorem spares_signalSeen (hinv : Inv (life d.db.toTables)) (cardId : Int) (seen : Sighting)
    (hrun : run ∈ d.db.runs) (hopen : run.isOpen = true) (hne : k ≠ run.id) :
    Spares run d (signalSeen env k cardId seen d) := by
  unfold signalSeen
  split
  · exact spares_applySignal hinv cardId _ hrun hopen hne
  · exact .refl hrun

theorem spares_finalizeGone (hinv : Inv (life d.db.toTables)) (message : String)
    (hrun : run ∈ d.db.runs) (hopen : run.isOpen = true) (hne : k ≠ run.id) :
    Spares run d (finalizeGone cfg env k message d) := by
  have hcases : FinalizesOrNot cfg env k .fail (some message) (some message) false d
      (finalizeGone cfg env k message d) := finalizeRun_cases d
  have hvia : Via (Concerns k) d.db (finalizeGone cfg env k message d).db :=
    hcases.via .finish fun _ next _ _ => .hop next
  obtain ⟨hrow, hcard⟩ := via_spares hvia hinv hrun hopen hne
  refine ⟨hrow, hcard, ?_⟩
  rcases hcases with h | ⟨other, plan, h⟩
  · rw [h]
  · rw [h.settled]
    exact AList.lookup_erase_ne hne.symm

/-- A task leaves the open runs alone that it is not about. -/
theorem task_spares {t : Task} (hinv : Inv (life d.db.toTables)) (hrun : run ∈ d.db.runs)
    (hopen : run.isOpen = true) (hne : ∀ k, runOf t = some k → k ≠ run.id) :
    Spares run d (t.next cfg defaultSocket env d).1 := by
  cases t with
  | probing observed cardId => exact .refl hrun
  | observed observed cardId herdr =>
      simp only [Task.next]
      split <;> exact .refl hrun
  | gone observed cardId seen => exact spares_finalizeGone hinv _ hrun hopen (hne _ rfl)
  | adopting a seen =>
      simp only [Task.next]
      split
      · exact .refl hrun
      · next hnew =>
          refine .of_db hrun (insertReconciled_db _ _ d) ?_
          simp only [insertReconciled, if_neg hnew]
          exact AList.lookup_insert_ne (hne _ rfl).symm
  | adopted runId cardId seen => exact spares_signalSeen hinv cardId seen hrun hopen (hne _ rfl)
  | event seen => exact .refl hrun
  | routed runId entry seen =>
      simp only [Task.next]
      split <;> exact .refl hrun
  | carded runId cardId seen =>
      simp only [Task.next]
      split
      · exact spares_armIdle hrun (hne _ rfl)
      · exact .refl hrun
      · exact .refl hrun
      · exact spares_setIdle none hrun (hne _ rfl)
  | cleared runId cardId seen => exact spares_signalSeen hinv cardId seen hrun hopen (hne _ rfl)
  | closing runId entry seen => exact spares_finalizeGone hinv _ hrun hopen (hne _ rfl)

/-! ## Histories -/

/-- The pane that was seen is the one of the handle. -/
def SeenOn (defaultSocket : String) (handle : RuntimeHandle) (seen : Sighting) : Prop :=
  handle.paneId = some seen.paneId ∧
    effectiveHerdrSocket defaultSocket handle.herdrSocket = seen.socket

/-- While a run is registered on a pane, no event of the pane and nothing about its id is in flight;
while it is adopted, no event of its pane is from before its registration. -/
def Timely (defaultSocket : String) (s : Reconciling) : ReconcileLabel → Prop
  | .other (.dispatch _ (.registered claimed _ handle)) =>
      (s.world.daemon.db.run? claimed.1.id).any Run.isQueued = true → ∀ p ∈ s.pending,
        runOf p.task ≠ some claimed.1.id ∧ ∀ seen, p.task = .event seen →
          ¬SeenOn defaultSocket handle seen
  | .advance i _ => ∀ p a found, s.pending[i]? = some p → p.task = .adopting a found →
      ∀ q ∈ s.pending, q.seenAt < s.registeredAt a.run.id → ∀ seen, q.task = .event seen →
        ¬SeenOn defaultSocket (adoptedHandle a.run a.socket) seen
  | _ => True

/-- What is in flight about a run, or would be routed to it, was seen after its registration. -/
structure Ordered (defaultSocket : String) (s : Reconciling) : Prop where
  inv : Inv (life s.world.daemon.db.toTables)
  past : ∀ k, s.registeredAt k ≤ s.clock
  named : ∀ p ∈ s.pending, ∀ k, runOf p.task = some k → s.registeredAt k ≤ p.seenAt
  routed : ∀ p ∈ s.pending, ∀ seen, p.task = .event seen →
    ∀ k a, s.world.daemon.sched.active.lookup k = some a →
    Names defaultSocket a seen → s.registeredAt k ≤ p.seenAt

theorem Names.of_sameWatch {a a' : ActiveRun} {seen : Sighting} (h : Names defaultSocket a' seen)
    (hsame : SameWatch a a') : Names defaultSocket a seen where
  pane := hsame.1 ▸ h.pane
  socket := hsame.2 ▸ h.socket

theorem Ordered.tick (h : Ordered defaultSocket s) : Ordered defaultSocket s.tick where
  inv := h.inv
  past k := Nat.le_succ_of_le (h.past k)
  named := h.named
  routed := h.routed

/-- Tasks that start now are about what was registered before. -/
theorem Ordered.more (h : Ordered defaultSocket s) {s' : Reconciling} (hworld : s'.world = s.world)
    (hclock : s'.clock = s.clock) (hat : s'.registeredAt = s.registeredAt)
    (hpending : ∀ p ∈ s'.pending, p ∈ s.pending ∨ p.seenAt = s.clock) :
    Ordered defaultSocket s' where
  inv := hworld ▸ h.inv
  past k := by
    rw [hat, hclock]
    exact h.past k
  named p hp k hk := by
    rw [hat]
    rcases hpending p hp with hp | hnow
    · exact h.named p hp k hk
    · rw [hnow]
      exact h.past k
  routed p hp seen ht k a ha hnames := by
    rw [hat]
    rw [hworld] at ha
    rcases hpending p hp with hp | hnow
    · exact h.routed p hp seen ht k a ha hnames
    · rw [hnow]
      exact h.past k

/-- A step that registers no run and keeps the watch entries. -/
theorem Ordered.keeps (h : Ordered defaultSocket s) {s' : Reconciling}
    (hinv : Inv (life s'.world.daemon.db.toTables))
    (hwatch : KeepsWatch s.world.daemon s'.world.daemon) (hclock : s'.clock = s.clock)
    (hat : s'.registeredAt = s.registeredAt)
    (hpending : ∀ p ∈ s'.pending, p ∈ s.pending) : Ordered defaultSocket s' where
  inv := hinv
  past k := by
    rw [hat, hclock]
    exact h.past k
  named p hp k hk := by
    rw [hat]
    exact h.named p (hpending p hp) k hk
  routed p hp seen ht k a' ha' hnames := by
    obtain ⟨a, ha, hsame⟩ := hwatch k a' ha'
    rw [hat]
    exact h.routed p (hpending p hp) seen ht k a ha (hnames.of_sameWatch hsame)

theorem Ordered.registered (h : Ordered defaultSocket s) (env : Env) (claimed : Run × Card)
    (column : Column) (handle : RuntimeHandle)
    (htimely : Timely defaultSocket s
      (.other (.dispatch env (.registered claimed column handle)))) :
    Ordered defaultSocket (s.serve cfg (.dispatch env (.registered claimed column handle))) := by
  have hvia := via_step_daemon cfg h.inv (.dispatch env (.registered claimed column handle))
  rcases @watch_registered cfg s.world env claimed column handle with
      ⟨hwatch, -, hnone⟩ | ⟨hsome, run, _, _, hreg⟩
  · refine h.keeps (hvia.inv h.inv) hwatch rfl ?_ fun _ => id
    simp only [Reconciling.serve, hnone]
  · have hqueued : (s.world.daemon.db.run? claimed.1.id).any Run.isQueued = true := by
      rw [hreg.found]
      exact hreg.isQueued
    have hfree := htimely hqueued
    have hat : (s.serve cfg (.dispatch env (.registered claimed column handle))).registeredAt =
        Function.update s.registeredAt claimed.1.id s.clock := by
      simp only [Reconciling.serve, hsome]
    refine ⟨hvia.inv h.inv, fun k => ?_, fun p hp k hk => ?_, fun p hp seen ht k a ha hnames => ?_⟩
    · rw [hat]
      by_cases hid : k = claimed.1.id
      · rw [hid, Function.update_self]
        exact le_refl _
      · rw [Function.update_of_ne hid]
        exact h.past k
    · have hid : k ≠ claimed.1.id := by
        rintro rfl
        exact (hfree p hp).1 hk
      rw [hat, Function.update_of_ne hid]
      exact h.named p hp k hk
    · have hactive : (s.world.next cfg
          (.dispatch env (.registered claimed column handle))).daemon.sched.active =
          s.world.daemon.sched.active.insert claimed.1.id _ :=
        congrArg (·.sched.active) hreg.settled
      have ha' : (s.world.next cfg
          (.dispatch env (.registered claimed column handle))).daemon.sched.active.lookup k =
          some a := ha
      rw [hactive] at ha'
      by_cases hid : k = claimed.1.id
      · rw [hid, AList.lookup_insert] at ha'
        cases ha'
        exact absurd ⟨hnames.pane, hnames.socket⟩ ((hfree p hp).2 seen ht)
      · rw [AList.lookup_insert_ne hid] at ha'
        rw [hat, Function.update_of_ne hid]
        exact h.routed p hp seen ht k a ha' hnames

theorem Ordered.serve (h : Ordered defaultSocket s) (l : Label)
    (htimely : Timely defaultSocket s (.other l)) : Ordered defaultSocket (s.serve cfg l) := by
  have hvia := via_step_daemon cfg h.inv l
  cases l with
  | adopt env x => exact h
  | restart =>
      exact
        { inv := hvia.inv h.inv
          past := h.past
          named := fun p hp => nomatch hp
          routed := fun p hp => nomatch hp }
  | request env r =>
      exact h.keeps (hvia.inv h.inv)
        (keepsWatch_next s.world _ (by simp) (by simp)) rfl rfl fun _ => id
  | watch env x =>
      exact h.keeps (hvia.inv h.inv)
        (keepsWatch_next s.world _ (by simp) (by simp)) rfl rfl fun _ => id
  | dispatch env x =>
      by_cases hregister : ∃ claimed column handle, x = .registered claimed column handle
      · obtain ⟨claimed, column, handle, rfl⟩ := hregister
        exact h.registered env claimed column handle htimely
      · have hother : ∀ env' claimed column handle,
            Label.dispatch env x ≠ .dispatch env' (.registered claimed column handle) := by
          intro env' claimed column handle heq
          cases heq
          exact hregister ⟨claimed, column, handle, rfl⟩
        refine h.keeps (hvia.inv h.inv)
          (keepsWatch_next s.world _ (by simp) hother) rfl ?_ fun _ => id
        simp only [Reconciling.serve, registers_none hother]

/-- The watch entries a task leaves: those that were there, and the one it adopts. -/
theorem lookup_of_serves {t : Task} (h : TaskServes cfg env d t d') {a' : ActiveRun}
    (ha' : d'.sched.active.lookup k = some a') :
    (∃ a, d.sched.active.lookup k = some a ∧ SameWatch a a') ∨
      ∃ a found, t = .adopting a found ∧ k = a.run.id ∧ a' = a.entry env := by
  cases h with
  | nothing => exact .inl ⟨a', ha', rfl, rfl⟩
  | watch t x => exact .inl (keepsWatch_watch d x k a' ha')
  | insert a found hnew =>
      simp only [insertReconciled, hnew, Option.isSome_none, Bool.false_eq_true, if_false] at ha'
      by_cases hk : k = a.run.id
      · rw [hk, AList.lookup_insert] at ha'
        cases ha'
        exact .inr ⟨a, found, rfl, hk, rfl⟩
      · rw [AList.lookup_insert_ne hk] at ha'
        exact .inl ⟨a', ha', rfl, rfl⟩

theorem Ordered.advance (h : Ordered defaultSocket s) (i : Nat) (env : Env)
    (htimely : Timely defaultSocket s (.advance i env)) :
    Ordered defaultSocket (s.advance cfg defaultSocket i env) := by
  cases hp : s.pending[i]? with
  | none =>
      simp only [Reconciling.advance, hp]
      exact h
  | some p =>
      have hin := List.mem_of_getElem? hp
      have hat : (s.advance cfg defaultSocket i env).registeredAt = s.registeredAt := by
        simp only [Reconciling.advance, hp]
      have hclock : (s.advance cfg defaultSocket i env).clock = s.clock := by
        simp only [Reconciling.advance, hp]
      have hserves : TaskServes cfg env s.world.daemon p.task
          (s.advance cfg defaultSocket i env).world.daemon := by
        rw [daemon_advance hp]
        exact task_serves p.task s.world.daemon
      refine ⟨(hserves.kept h.inv).1, fun k => ?_, fun q hq k hk => ?_,
        fun q hq seen ht k a' ha' hnames => ?_⟩
      · rw [hat, hclock]
        exact h.past k
      · rw [hat]
        rcases mem_advance hq with hq | ⟨p', t, hp', ht, rfl⟩
        · exact h.named q hq k hk
        · cases hp.symm.trans hp'
          rcases followUp_about ht with
              ⟨hrun, -⟩ | ⟨seen, runId, entry, hevent, rfl, hentry, hnames⟩
          · exact h.named p hin k (hrun ▸ hk)
          · cases hk
            exact h.routed p hin seen hevent _ entry hentry hnames
      · have hold : q ∈ s.pending := by
          rcases mem_advance hq with hq | ⟨p', t, hp', hnext, rfl⟩
          · exact hq
          · rcases followUp_about hnext with ⟨-, hne⟩ | ⟨_, _, _, -, rfl, -⟩
            · exact absurd ht (hne seen)
            · cases ht
        rw [hat]
        rcases lookup_of_serves hserves ha' with ⟨a, ha, hsame⟩ | ⟨a, found, htask, rfl, rfl⟩
        · exact h.routed q hold seen ht k a ha (hnames.of_sameWatch hsame)
        · by_contra hlater
          exact htimely p a found hp htask q hold (Nat.lt_of_not_le hlater) seen ht
            ⟨hnames.pane, hnames.socket⟩

theorem Ordered.next (h : Ordered defaultSocket s) (l : ReconcileLabel)
    (htimely : Timely defaultSocket s l) : Ordered defaultSocket (s.next cfg defaultSocket l) := by
  simp only [Reconciling.next]
  apply Ordered.tick
  cases l with
  | other l => exact h.serve l htimely
  | readActive =>
      refine h.more rfl rfl rfl fun p hp => ?_
      rcases List.mem_append.mp hp with hp | hp
      · exact .inl hp
      · obtain ⟨rc, -, rfl⟩ := List.mem_map.mp hp
        exact .inr rfl
  | probe i herdr =>
      simp only
      split
      · refine h.more rfl rfl rfl fun p hp => ?_
        rcases List.mem_or_eq_of_mem_set hp with hp | rfl
        · exact .inl hp
        · exact .inr rfl
      · exact h
  | snapshot socket watched herdr =>
      refine h.more rfl rfl rfl fun p hp => ?_
      rcases List.mem_append.mp hp with hp | hp
      · exact .inl hp
      · obtain ⟨t, -, rfl⟩ := List.mem_map.mp hp
        exact .inr rfl
  | emit socket paneId status =>
      refine h.more rfl rfl rfl fun p hp => ?_
      rcases List.mem_append.mp hp with hp | hp
      · exact .inl hp
      · cases List.mem_singleton.mp hp
        exact .inr rfl
  | advance i env => exact h.advance i env htimely

theorem ordered_of_reachable
    (h : (reconciling cfg defaultSocket).ReachableBy (fun s l => Timely defaultSocket s l) s) :
    Ordered defaultSocket s := by
  refine h.invariant (I := Ordered defaultSocket) ?_ ?_
  · rintro s rfl
    exact
      { inv := inv_fresh
        past := fun k => le_refl _
        named := fun p hp => nomatch hp
        routed := fun p hp => nomatch hp }
  · rintro s l s' hs htimely rfl
    exact hs.next l htimely

/-- What was seen before a run was registered leaves the run, its card and its watch entry alone. -/
theorem stale_sightings_spare_later_runs
    (h : (reconciling cfg defaultSocket).ReachableBy (fun s l => Timely defaultSocket s l) s)
    {i : Nat} {p : Pending} (hp : s.pending[i]? = some p) (hrun : run ∈ s.world.daemon.db.runs)
    (hopen : run.endedAt = none) (hlater : p.seenAt < s.registeredAt run.id) (env : Env) :
    Spares run s.world.daemon (s.next cfg defaultSocket (.advance i env)).world.daemon := by
  have hordered := ordered_of_reachable h
  have hne : ∀ k, runOf p.task = some k → k ≠ run.id := by
    rintro k hk rfl
    exact absurd (hordered.named p (List.mem_of_getElem? hp) _ hk) (Nat.not_le_of_lt hlater)
  rw [world_advance hp]
  exact task_spares hordered.inv hrun (isOpen_iff.mpr hopen) hne

/-- The agent on one pane is seen working before a run is registered on another. -/
def seenElsewhere : Reconciling :=
  let s := cardQueued.next oneAtATime "/herdr.sock" (.emit "/herdr.sock" "p1" (some .working))
  s.run oneAtATime "/herdr.sock" ((launchOn "p2" s).map .other)

theorem reachableBy_seenElsewhere :
    (reconciling oneAtATime "/herdr.sock").ReachableBy (fun s l => Timely "/herdr.sock" s l)
      seenElsewhere := by
  have hqueued : (reconciling oneAtATime "/herdr.sock").ReachableBy
      (fun s l => Timely "/herdr.sock" s l) cardQueued := by
    refine reachableBy_others (.init rfl) queueOneCard (by simp [queueOneCard]) fun l hl s' hs' =>
      ?_
    simp only [queueOneCard, List.mem_cons, List.not_mem_nil, or_false] at hl
    rcases hl with rfl | rfl | rfl <;> trivial
  have hseen := reachableBy_next (l := .emit "/herdr.sock" "p1" (some .working)) hqueued trivial
  refine reachableBy_others hseen (launchOn "p2" _) launchOn_ne_restart fun l hl s' hs' => ?_
  obtain ⟨x, rfl, hregistered⟩ := mem_launchOn hl
  cases x with
  | registered claimed column handle =>
      intro _ p hp
      have hidle : cardQueued.pending = [] := by decide +kernel
      have hevent : p.task =
          .event { socket := "/herdr.sock",
                   paneId := "p1", status := some .working, snapshot := none } := by
        have hpending : s'.pending = cardQueued.pending ++ [_] := hs'
        rw [hpending, hidle] at hp
        exact congrArg Pending.task (List.mem_singleton.mp hp)
      rw [hregistered claimed column handle rfl, hevent]
      refine ⟨by simp [runOf], fun seen hseen hon => ?_⟩
      cases hseen
      exact absurd hon.1 (by simp [onPane])
  | _ => trivial

theorem sighting_elsewhere_spares : ∃ run ∈ seenElsewhere.world.daemon.db.runs, run.id = 1 ∧
    Spares run seenElsewhere.world.daemon
      (seenElsewhere.next oneAtATime "/herdr.sock" (.advance 0 permissiveEnv)).world.daemon := by
  have hopen : (seenElsewhere.world.daemon.db.run? 1).map Run.endedAt = some none := by
    decide +kernel
  have hlater : seenElsewhere.pending[0]?.map
      (fun p => decide (p.seenAt < seenElsewhere.registeredAt 1)) = some true := by
    decide +kernel
  obtain ⟨run, hrun, hopen⟩ := Option.map_eq_some_iff.mp hopen
  obtain ⟨p, hp, hlater⟩ := Option.map_eq_some_iff.mp hlater
  have hid : run.id = 1 := Table.key_of_find? hrun
  have hmem := Table.mem_of_find? hrun
  have hseen : p.seenAt < seenElsewhere.registeredAt run.id := by
    rw [hid]
    exact of_decide_eq_true hlater
  exact ⟨run, hmem, hid, stale_sightings_spare_later_runs reachableBy_seenElsewhere hp hmem hopen
    hseen permissiveEnv⟩

/-- The pane of a run exits; before that is applied the run is done and the card's next run is
registered on the pane. -/
def paneReused : Reconciling :=
  let s := runOnPane.run oneAtATime "/herdr.sock"
    [ .emit "/herdr.sock" "p1" none,
      .other (.watch permissiveEnv (.finalizeRun 1 .ok none none false false)),
      .other (.request permissiveEnv (.runRetryEnqueue 1 2)) ]
  (s.run oneAtATime "/herdr.sock" ((launchOn "p1" s).map .other)).run oneAtATime "/herdr.sock"
    [.advance 0 permissiveEnv, .advance 0 permissiveEnv]

/-- The exit that was seen before the run was registered ends it. -/
theorem stale_exit_ends_run : (reconciling oneAtATime "/herdr.sock").Reachable paneReused ∧
    paneReused.pending.map (fun p => decide (p.seenAt < paneReused.registeredAt 2)) = [true] ∧
    (paneReused.world.daemon.db.run? 2).map (fun r => (r.herdrPaneId, r.endedAt)) =
    some (some "p1", none) ∧ (paneReused.world.daemon.db.card? 1).map Card.status = some .running ∧
    ((paneReused.next oneAtATime "/herdr.sock" (.advance 0 permissiveEnv)).world.daemon.db.run?
      2).map (fun r => (r.endedAt.isSome, r.outcome)) = some (true, some .fail) ∧
    ((paneReused.next oneAtATime "/herdr.sock" (.advance 0 permissiveEnv)).world.daemon.db.card?
      1).map Card.status = some .failed := by
  have hpane : (reconciling oneAtATime "/herdr.sock").Reachable runOnPane :=
    reconciling_reachable_run (reconciling_reachable_run (.init rfl) _) _
  refine ⟨?_, by decide +kernel⟩
  exact reconciling_reachable_run
    (reconciling_reachable_run (reconciling_reachable_run hpane _) _) _

end HerdrBoard.Reconcile
