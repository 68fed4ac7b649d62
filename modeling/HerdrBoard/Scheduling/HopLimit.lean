import HerdrBoard.Scheduling.Hops

/-!
# The limit of auto-hops

A restart forgets the counts, so a card whose run is open then may be hopped further than
`MAX_AUTO_HOPS`. -/

open Lib HerdrBoard.Core HerdrBoard.Daemon HerdrBoard.Lifecycle HerdrBoard.Reconcile

namespace HerdrBoard.Scheduling

variable {cfg : Config} {env : Env} {db db' : Db} {d d' : DaemonState} {c : Int}

/-! ## Where a transition leaves the card -/

/-- The column a card is in. -/
def columnOf (cardId : Int) (t : Tables) : Option Int := (t.cards.find? cardId).map Card.columnId

theorem columnOf_update {cardId : Int} {t : Tables} {p : Card → Bool} {f : Card → Card} {hkey}
    (hf : ∀ c, (f c).columnId = c.columnId) :
    columnOf cardId { t with cards := t.cards.update p f hkey } = columnOf cardId t := by
  unfold columnOf
  rw [Table.find?_update, Option.map_map]
  refine Option.map_congr fun c _ => ?_
  simp only [Function.comp_apply]
  split
  · exact hf c
  · rfl

theorem positionBlind_columnOf (cardId : Int) : PositionBlind (columnOf cardId) :=
  fun _ _ _ => columnOf_update fun _ => rfl

theorem columnOf_applyTransition {cardId columnId : Int} {u : Unit}
    (h : applyTransition cardId (some columnId) db = .ok u db') :
    columnOf cardId db'.toTables = some columnId := by
  simp only [applyTransition, bind_ok, get_ok, refuse_ok, requireCard_ok, updateCards_ok] at h
  obtain ⟨_, _, ⟨rfl, rfl⟩, _, _, ⟨-, rfl⟩, card, _, ⟨hcard, rfl⟩, _, moved, ⟨hmoved, -⟩, _, _,
    ⟨rfl, rfl⟩, _, placed, hplaced, h⟩ := h
  have hthere : columnOf cardId moved.toTables = some columnId := by
    have hfind : db.cards.find? cardId = some card := hcard
    have hid : card.id = cardId := Table.key_of_find? hcard
    rw [hmoved]
    simp [columnOf, Table.find?_update, hfind, hid]
  have hkept : columnOf cardId placed.toTables = columnOf cardId moved.toTables :=
    (keeps_positions (positionBlind_columnOf cardId) _).ok hplaced
  rcases ite_ok.mp h with ⟨-, h⟩ | ⟨-, h⟩
  · have hcompacted : columnOf cardId db'.toTables = columnOf cardId placed.toTables :=
      (keeps_positions_renumberColumnCardsTx (positionBlind_columnOf cardId) _).ok h
    rw [hcompacted, hkept, hthere]
  · obtain ⟨-, rfl⟩ := pure_ok.mp h
    rw [hkept, hthere]

/-- The card of a run that ended with a transition is in the target column, in the final status. -/
theorem finalizeRunUow_card {conn : Conn} {p : FinalizeRun} {effects : FinalizeEffects} {run : Run}
    {columnId : Int} (hnext : p.next = none) (htarget : p.targetColumnId = some columnId)
    (hrun : db.run? p.runId = some run) (h : finalizeRunUow conn p db = .ok effects db') :
    ∃ card, db'.card? run.cardId = some card ∧ card.status = p.finalStatus ∧
      card.columnId = columnId := by
  obtain ⟨ids, htx⟩ := finalizeRunUow_ok h
  simp only [finalizeRunTx, bind_ok, get_ok, okOr_ok, updateCards_ok, pure_ok, hnext, htarget]
    at htx
  obtain ⟨_, _, ⟨rfl, rfl⟩, found, _, ⟨hfound, rfl⟩, _, _, -, _, _, -, _, _, -, _, _, -, _, moved,
    hmoved, _, ended, ⟨hended, -⟩, _, _, hnone, -, rfl⟩ := htx
  obtain ⟨-, rfl⟩ := pure_ok.mp hnone
  obtain ⟨hfind, -⟩ := Option.filter_eq_some_iff.mp hfound
  cases hrun.symm.trans hfind
  obtain ⟨card, hcard, hcolumn⟩ := Option.map_eq_some_iff.mp (columnOf_applyTransition hmoved)
  have hid : card.id = run.cardId := Table.key_of_find? hcard
  refine ⟨{ card with
    status := p.finalStatus, awaitingReason := p.finalAwaitingReason,
    updatedAt := conn.now }, ?_, rfl, hcolumn⟩
  rw [Db.card?, hended]
  simp [Table.find?_update, hcard, hid]

/-! ## The hop that is refused -/

/-- An open run of the card, whose outcome leads to an auto column. -/
structure LeadsOn (db : Db) (run : Run) (outcome : RunOutcome) (target : Column) : Prop where
  mem : run ∈ db.runs
  isOpen : run.isOpen = true
  leads : ∃ card current, db.card? run.cardId = some card ∧ db.column? run.columnId = some current ∧
    transitionTarget current (db.listColumns card.boardId) outcome = some target
  auto : target.trigger = .auto

/-- The card has failed in the column, and has no open run. -/
structure StoppedIn (db : Db) (cardId columnId : Int) : Prop where
  card : ∃ card, db.card? cardId = some card ∧ card.status = .failed ∧ card.columnId = columnId
  closed : ¬HasOpen db cardId

section Stop

variable {run : Run} {outcome : RunOutcome} {target : Column} {summary extraComment : Option String}
    {kill : Bool}

theorem stopped_finalizes (h : LeadsOn d.db run outcome target)
    (hlimit : MAX_AUTO_HOPS ≤ hopCount d run.cardId)
    (hfin : FinalizesAsPlanned cfg env run.id outcome summary extraComment kill true d d') :
    d' = d ∨ StoppedIn d'.db run.cardId target.id := by
  obtain h' | ⟨found, card, plan, hcard, hplan, hfin⟩ := hfin
  · exact .inl h'
  · have hrun : d.db.run? run.id = some run := Table.find?_key h.mem
    cases hrun.symm.trans hfin.found
    obtain ⟨card', current, hcard', hcurrent, hleads⟩ := h.leads
    cases hcard.symm.trans hcard'
    have hid : card.id = run.cardId := Table.key_of_find? hcard
    obtain ⟨effects, huow⟩ := hfin.committed
    have hstop : ∀ comments, plan = .plain comments (some target.id) .failed →
        StoppedIn d'.db run.cardId target.id := by
      rintro comments rfl
      exact ⟨finalizeRunUow_card rfl rfl hrun huow, not_hasOpen_of_finish rfl rfl hrun huow⟩
    cases hplan with
    | transition elapsed _ hplanned =>
        obtain ⟨current', hcurrent', hcase⟩ := planTransition_cases hplanned
        cases hcurrent.symm.trans hcurrent'
        cases hcase with
        | stay comments hnone =>
            rw [hleads] at hnone
            cases hnone
        | manual comments target' htarget hmanual =>
            cases hleads.symm.trans htarget
            exact absurd h.auto hmanual
        | suppressed comments target' htarget hauto hsuppressed =>
            cases hleads.symm.trans htarget
            exact .inr (hstop comments rfl)
        | stopped comments target' htarget hauto hover =>
            cases hleads.symm.trans htarget
            exact .inr (hstop comments rfl)
        | hop comments target' prepared htarget hauto hunder hprepared =>
            rw [hid] at hunder
            have hle : nextHop (hopCount d run.cardId) ≤ MAX_AUTO_HOPS := hunder
            simp only [nextHop, MAX_AUTO_HOPS] at hle hlimit
            omega

end Stop

/-! ## Counting the hops of a card -/

/-- The daemon, with the runs of each card that it started itself since a request last
started one. -/
structure Chained where
  world : World
  hopped : Int → Nat

/-- The count after a step that started some runs of the card. -/
def countHops (hopped started : Nat) : Label → Nat
  | .request _ _ => if started = 0 then hopped else 0
  | _ => hopped + started

def Chained.next (cfg : Config) (s : Chained) (l : Label) : Chained where
  world := s.world.next cfg l
  hopped c := countHops (s.hopped c)
    (startedRuns s.world.daemon.db (s.world.next cfg l).daemon.db c) l

def Chained.run (cfg : Config) (s : Chained) : List Label → Chained
  | [] => s
  | l :: ls => (s.next cfg l).run cfg ls

def Chained.start : Chained := { world := .start Db.fresh, hopped := fun _ => 0 }

def chained (cfg : Config) : System Chained Label where
  init s := s = .start
  step s l s' := s' = s.next cfg l

/-- A restart finds no card that was hopped to the run it has open. -/
def KeepsChains (s : Chained) (l : Label) : Prop :=
  l = .restart → ∀ run ∈ s.world.daemon.db.runs, run.isOpen = true →
    hopCount s.world.daemon run.cardId = 0

/-- A card with an open run was hopped no more often than the scheduler counts. -/
structure Bounded (s : Chained) : Prop where
  inv : Inv (life s.world.daemon.db.toTables)
  limit : ∀ c, s.hopped c ≤ MAX_AUTO_HOPS
  counted : ∀ c, HasOpen s.world.daemon.db c → s.hopped c ≤ hopCount s.world.daemon c

theorem countHops_zero (hopped : Nat) (l : Label) : countHops hopped 0 l = hopped := by
  cases l <;> simp [countHops]

/-- What a step does to the count of one card. -/
inductive Counts (d d' : DaemonState) (l : Label) (c : Int) : Prop
  | keeps (hstarts : ¬Starts d.db d'.db c)
      (hkeeps : HasOpen d.db c → HasOpen d'.db c → hopCount d' c = hopCount d c)
  | reset (env : Env) (r : Request) (hl : l = .request env r)
      (hstarts : startedRuns d.db d'.db c ≠ 0)
  | hop (hl : ∀ env r, l ≠ .request env r) (hopen : HasOpen d.db c)
      (hlimit : nextHop (hopCount d c) ≤ MAX_AUTO_HOPS)
      (hone : startedRuns d.db d'.db c = 1) (hcount : hopCount d' c = nextHop (hopCount d c))

theorem counts_of_noHop {l : Label} (h : NoHop d d') (c : Int) : Counts d d' l c :=
  .keeps (h.starts c) (h.keeps c)

theorem counts_next {w : World} (hinv : Inv (life w.daemon.db.toTables)) {l : Label}
    (hl : l ≠ .restart) (c : Int) : Counts w.daemon (w.next cfg l).daemon l c := by
  cases l with
  | request env r =>
      by_cases hzero : startedRuns w.daemon.db (w.next cfg (.request env r)).daemon.db c = 0
      · exact .keeps (not_starts_of_startedRuns hzero) (keepsHops_request w.daemon r c)
      · exact .reset env r rfl hzero
  | watch env x =>
      obtain hno | ⟨cardId, hhops⟩ := @hops_watch cfg env w.daemon hinv x
      · exact counts_of_noHop hno c
      · by_cases hc : c = cardId
        · rw [← hc] at hhops
          exact .hop (by simp) hhops.hasOpen hhops.limit hhops.one hhops.count
        · obtain ⟨hcount, hstarts⟩ := hhops.other c hc
          exact .keeps hstarts fun _ _ => hcount
  | dispatch env x => exact counts_of_noHop (noHop_dispatch w x) c
  | adopt env x => exact counts_of_noHop (noHop_adopt w x) c
  | restart => exact absurd rfl hl

theorem Bounded.card {s : Chained} (h : Bounded s) {l : Label} (hl : l ≠ .restart) (c : Int) :
    (s.next cfg l).hopped c ≤ MAX_AUTO_HOPS ∧
      (HasOpen (s.next cfg l).world.daemon.db c →
        (s.next cfg l).hopped c ≤ hopCount (s.next cfg l).world.daemon c) := by
  have hvia := via_step_daemon cfg h.inv l
  have hcounts := @counts_next cfg s.world h.inv l hl c
  show countHops _ _ l ≤ _ ∧ (_ → countHops _ _ l ≤ hopCount (s.world.next cfg l).daemon c)
  cases hcounts with
  | keeps hstarts hkeeps =>
      rw [startedRuns_of_not_starts hstarts, countHops_zero]
      refine ⟨h.limit c, fun hopen => ?_⟩
      have hwas := hasOpen_of_not_starts hvia (deletesOrKeeps_step cfg _ l) hstarts hopen
      rw [hkeeps hwas hopen]
      exact h.counted c hwas
  | reset env r heq hstarts =>
      rw [heq] at hstarts ⊢
      have hzero : ∀ started, started ≠ 0 → countHops (s.hopped c) started (.request env r) = 0 :=
        fun _ hne => if_neg hne
      rw [hzero _ hstarts]
      exact ⟨Nat.zero_le _, fun _ => Nat.zero_le _⟩
  | hop hrequest hopen hlimit hone hcount =>
      have hadds : countHops (s.hopped c) 1 l = s.hopped c + 1 := by
        cases l with
        | request env r => exact absurd rfl (hrequest env r)
        | watch | dispatch | adopt | restart => rfl
      have hle := h.counted c hopen
      rw [hone, hadds, hcount]
      simp only [nextHop, MAX_AUTO_HOPS] at hlimit ⊢
      omega

theorem startedRuns_self (db : Db) (c : Int) : startedRuns db db c = 0 :=
  startedRuns_of_not_starts ((refl_of NoHop (DaemonState.start db)).starts c)

theorem Bounded.restart {s : Chained} (h : Bounded s)
    (hclosed : ∀ run ∈ s.world.daemon.db.runs, run.isOpen = true →
    hopCount s.world.daemon run.cardId = 0) : Bounded (s.next cfg .restart) := by
  have hsame : ∀ c, (s.next cfg .restart).hopped c = s.hopped c := by
    intro c
    show countHops (s.hopped c)
        (startedRuns s.world.daemon.db s.world.daemon.db c) .restart = s.hopped c
    rw [startedRuns_self, countHops_zero]
  refine ⟨h.inv, fun c => ?_, fun c hopen => ?_⟩
  · rw [hsame]
    exact h.limit c
  · obtain ⟨run, hrun, hcard, hopen⟩ := hopen
    have hcount := h.counted c ⟨run, hrun, hcard, hopen⟩
    rw [← hcard, hclosed run hrun hopen] at hcount
    rw [hsame, ← hcard]
    exact hcount.trans (Nat.zero_le _)

theorem Bounded.next {s : Chained} (h : Bounded s) {l : Label} (hl : KeepsChains s l) :
    Bounded (s.next cfg l) := by
  by_cases hrestart : l = .restart
  · have hclosed := hl hrestart
    rw [hrestart]
    exact h.restart hclosed
  · have hcard := fun c => @Bounded.card cfg s h l hrestart c
    exact ⟨(via_step_daemon cfg h.inv l).inv h.inv, fun c => (hcard c).1, fun c => (hcard c).2⟩

theorem bounded_of_reachable {s : Chained} (h : (chained cfg).ReachableBy KeepsChains s) :
    Bounded s := by
  refine h.invariant (fun s hs => ?_) fun s l s' hs hl hstep => ?_
  · cases hs
    exact ⟨inv_fresh, fun _ => Nat.zero_le _, fun _ _ => Nat.zero_le _⟩
  · cases hstep
    exact hs.next hl

/-! ## The limit -/

/-- The finalizations of a run that carry out the transition for its outcome. -/
inductive Transitions (runId : Int) : RunOutcome → Watch → Prop
  | finalizeRun (outcome : RunOutcome) (summary extraComment : Option String) (kill : Bool) :
      Transitions runId outcome (.finalizeRun runId outcome summary extraComment kill true)
  | timeout (c : Candidate) (now : Instant) (hid : c.runId = runId)
      (htimedOut : c.timedOut = true) : Transitions runId .fail (.candidate c now)

theorem Transitions.planned {runId : Int} {outcome : RunOutcome} {x : Watch}
    (h : Transitions runId outcome x) : ∃ summary extraComment kill,
      FinalizesAsPlanned cfg env runId outcome summary extraComment kill true d
        (serveWatch cfg env d x) := by
  cases h with
  | finalizeRun _ summary extraComment kill =>
      exact ⟨summary, extraComment, kill, finalizeRun_planned d⟩
  | timeout c now hid htimedOut =>
      show ∃ summary extraComment kill,
        FinalizesAsPlanned cfg env runId .fail summary extraComment kill true d
          (applyCandidate cfg env c now d)
      unfold applyCandidate
      rw [if_pos htimedOut, hid]
      exact ⟨_, _, _, finalizeRunInner_planned (some now) d⟩

/-- A finalization at the limit commits, unless the store fails. -/
theorem stopped_finalizeRun {run : Run} {outcome : RunOutcome} {target : Column}
    {summary extraComment : Option String} {kill : Bool} (h : LeadsOn d.db run outcome target)
    (hlimit : MAX_AUTO_HOPS ≤ hopCount d run.cardId)
    (hpass : env.conn.Passes .finalizeAfterRunUpdate) :
    StoppedIn (serveWatch cfg env d (.finalizeRun run.id outcome summary extraComment kill true)).db
      run.cardId target.id := by
  obtain hsame | hstopped :=
    stopped_finalizes h hlimit (@finalizeRun_planned cfg env run.id outcome summary extraComment
    kill true d)
  · exfalso
    obtain ⟨card, current, hcard, hcurrent, hleads⟩ := h.leads
    have haccepted : FinalizeAccepted cfg env true outcome run d := by
      refine ⟨hpass, fun _ _ _ _ _ _ _ _ _ hunder => ?_⟩
      have hle : nextHop (hopCount d run.cardId) ≤ MAX_AUTO_HOPS := hunder
      simp only [nextHop, MAX_AUTO_HOPS] at hle hlimit
      omega
    obtain ⟨finished, d', hinner, plan, effects, huow, -⟩ :=
      @finalizeRunInner_accepted cfg env d run.id outcome summary
      extraComment kill true none run card (Table.find?_key h.mem) h.isOpen rfl hcard haccepted
    obtain ⟨found, hfind, -, hended, -⟩ := finalizeRunUow_ends huow
    have hrun : finalizeRun cfg env run.id outcome summary extraComment kill true d =
        .ok finished d' := bind_run hinner
    have hstill : d' = d := by
      have hserved : finalState
          (finalizeRun cfg env run.id outcome summary extraComment kill true d) = d := hsame
      rwa [hrun] at hserved
    rw [hstill] at hended
    have hid : found.id = run.id := Table.key_of_find? hfind
    have heq : endedRun found env.conn.now outcome summary = run :=
      Table.eq_of_key_eq hended h.mem hid
    have hopen := h.isOpen
    rw [← heq] at hopen
    cases hopen
  · exact hstopped

/-- Where every restart finds only chains that have not hopped, a card is hopped at most
`MAX_AUTO_HOPS` times between two runs that requests start, and the finalization that would hop it
once more leaves it failed in the target column. -/
theorem auto_hop_limit {s : Chained} (h : (chained cfg).ReachableBy KeepsChains s) :
    (∀ c, s.hopped c ≤ MAX_AUTO_HOPS) ∧
      ∀ run outcome target, LeadsOn s.world.daemon.db run outcome target →
        s.hopped run.cardId = MAX_AUTO_HOPS →
        (∀ env x, Transitions run.id outcome x →
          serveWatch cfg env s.world.daemon x = s.world.daemon ∨
          StoppedIn (serveWatch cfg env s.world.daemon x).db run.cardId target.id) ∧
        ∀ env summary extraComment kill, env.conn.Passes .finalizeAfterRunUpdate →
          StoppedIn (serveWatch cfg env s.world.daemon
            (.finalizeRun run.id outcome summary extraComment kill true)).db
            run.cardId target.id := by
  have hbounded := bounded_of_reachable h
  refine ⟨hbounded.limit, fun run outcome target hleads hfull => ?_⟩
  have hlimit : MAX_AUTO_HOPS ≤ hopCount s.world.daemon run.cardId :=
    hfull ▸ hbounded.counted _ ⟨run, hleads.mem, rfl, hleads.isOpen⟩
  refine ⟨fun env x hx => ?_,
    fun env summary extraComment kill hpass => stopped_finalizeRun hleads hlimit hpass⟩
  obtain ⟨summary, extraComment, kill, hplanned⟩ :=
    @Transitions.planned cfg env s.world.daemon _ _ _ hx
  exact stopped_finalizes hleads hlimit hplanned

/-! ## A column that leads to itself -/

theorem reachableBy_chain {s : Chained} (h : (chained cfg).ReachableBy KeepsChains s)
    {ls : List Label}
    (hls : ∀ l ∈ ls, l ≠ .restart) : (chained cfg).ReachableBy KeepsChains (s.run cfg ls) := by
  induction ls generalizing s with
  | nil => exact h
  | cons l ls ih =>
      have hok : KeepsChains s l := fun hrestart => absurd hrestart (hls l (by simp))
      exact ih (h.step hok rfl) fun l' hl => hls l' (by simp [hl])

theorem reachable_chain {s : Chained} (h : (chained cfg).Reachable s) (ls : List Label) :
    (chained cfg).Reachable (s.run cfg ls) := by
  induction ls generalizing s with
  | nil => exact h
  | cons l ls ih => exact ih (h.step trivial rfl)

def fakeHarness : Config where
  maxConcurrent := 1
  idleGraceSeconds := 60
  timeoutUnitSecs := 60
  harness := [("fake", ["fake"])]

/-- A card with a queued run in an auto column that leads to itself. -/
def loopBoard : List Label :=
  [ .request permissiveEnv (.columnCreate { name := "Loop", trigger := some .auto }),
    .request permissiveEnv (.columnUpdate { id := 2, onSuccessColumnId := .set 2 }),
    .request permissiveEnv
      (.cardCreate { title := "Task", harness := some "fake", spaceRef := some "w1" }),
    .request permissiveEnv (.cardMove { id := 1, columnId := 2 }) ]

/-- The run of a configured harness is done, without ever being started. -/
def runDone (runId : Int) : Label :=
  .watch permissiveEnv (.finalizeRun runId .ok none none false true)

/-- The card has been hopped eight times. -/
def hoppedToLimit : Chained :=
  Chained.start.run fakeHarness (loopBoard ++ [1, 2, 3, 4, 5, 6, 7, 8].map runDone)

theorem reachableBy_hoppedToLimit :
    (chained fakeHarness).ReachableBy KeepsChains hoppedToLimit := by
  refine reachableBy_chain (.init rfl) fun l hl => ?_
  simp only [loopBoard, List.cons_append, List.nil_append, List.mem_cons, List.mem_map] at hl
  rcases hl with rfl | rfl | rfl | rfl | ⟨runId, -, rfl⟩ <;> exact nofun

/-- Whether the outcome of the run leads to the auto column. -/
def leadsOn (db : Db) (runId : Int) (outcome : RunOutcome) (columnId : Int) : Bool :=
  (db.run? runId).any fun run => run.isOpen && (db.card? run.cardId).any fun card =>
    (db.column? run.columnId).any fun current =>
      (transitionTarget current (db.listColumns card.boardId) outcome).any fun target =>
        target.id == columnId && target.trigger == .auto

theorem leadsOn_of_leadsOn {runId columnId : Int} {outcome : RunOutcome}
    (h : leadsOn db runId outcome columnId = true) :
    ∃ run target, run.id = runId ∧ target.id = columnId ∧ LeadsOn db run outcome target := by
  simp only [leadsOn, Option.any_eq_true, Bool.and_eq_true, beq_iff_eq] at h
  obtain ⟨run, hrun, hopen, card, hcard, current, hcurrent, target, htarget, hid, hauto⟩ := h
  exact ⟨run, target, Table.key_of_find? hrun, hid, Table.mem_of_find? hrun, hopen,
    ⟨card, current, hcard, hcurrent, htarget⟩, hauto⟩

theorem auto_hop_limit_reached : hoppedToLimit.hopped 1 = MAX_AUTO_HOPS ∧
    StoppedIn (hoppedToLimit.world.next fakeHarness (runDone 9)).daemon.db 1 2 := by
  have hfull : hoppedToLimit.hopped 1 = MAX_AUTO_HOPS := by decide +kernel
  have hlimit := auto_hop_limit reachableBy_hoppedToLimit
  obtain ⟨run, target, hid, htarget, hleads⟩ :=
    leadsOn_of_leadsOn (show leadsOn hoppedToLimit.world.daemon.db 9 .ok 2 = true by decide +kernel)
  have hcard : (hoppedToLimit.world.daemon.db.run? 9).map Run.cardId = some 1 := by decide +kernel
  have hfind : hoppedToLimit.world.daemon.db.run? 9 = some run := hid ▸ Table.find?_key hleads.mem
  rw [hfind, Option.map_some, Option.some.injEq] at hcard
  have hstopped := (hlimit.2 run .ok target hleads (hcard.symm ▸ hfull)).2 permissiveEnv
    none none false (passes_of_none rfl _)
  rw [hid, hcard, htarget] at hstopped
  exact ⟨hfull, hstopped⟩

/-- The daemon restarts while the run of the eighth hop is open. -/
def restartedAtLimit : Chained := hoppedToLimit.run fakeHarness [.restart, runDone 9]

/-- After the restart, the card is hopped a ninth time. -/
theorem restart_forgets_hops :
    ∃ s, (chained fakeHarness).Reachable s ∧ ¬s.hopped 1 ≤ MAX_AUTO_HOPS := by
  refine ⟨restartedAtLimit, reachable_chain (reachable_chain (.init rfl) _) _, ?_⟩
  have hcount : restartedAtLimit.hopped 1 = 9 := by decide +kernel
  rw [hcount]
  decide

end HerdrBoard.Scheduling
