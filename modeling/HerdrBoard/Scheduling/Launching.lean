import HerdrBoard.Daemon.Launch
import HerdrBoard.Scheduling.Claims

/-!
# Claimed runs are settled

How a launch ends, and what becomes of the runs that a dispatch pass claimed.
-/

open Lib HerdrBoard.Core HerdrBoard.Daemon HerdrBoard.Lifecycle

namespace HerdrBoard.Scheduling

variable {cfg : Config} {socketPath : String} {env : Env} {d : DaemonState} {s : Launcher}
  {db db' : Db} {E : Event → Prop}

/-! ## How a launch ends -/

/-- The launch finds the daemon's executable, and neither its session nor its workspace
resolution panics. -/
def Settles (a : Answers) (claimed : Run × Card) : Prop :=
  (∃ exe, a.currentExe = .ok exe) ∧ ∀ registry, a.sessionRegistry = some registry →
    (registry.resolve (launchSession claimed.1 claimed.2)).isPanicked = false ∧
      ∀ socket, registry.resolve (launchSession claimed.1 claimed.2) = .returned socket →
        a.workspace.isPanicked = false

/-- The launch registers a handle or fails its run. -/
inductive Settling (claimed : Run × Card) (column : Column) : Dispatch → Prop
  | registered (handle : RuntimeHandle) :
      Settling claimed column (.registered claimed column handle)
  | failed (reason : String) : Settling claimed column (.failed claimed reason)

theorem settling_afterSpawn (claimed : Run × Card) (column : Column)
    (answer : Called RuntimeHandle) :
    Settling claimed column (afterSpawn claimed column answer) := by
  cases answer with
  | returned handle => exact .registered handle
  | failed e => exact .failed _
  | panicked e => exact .failed _

theorem settling_spawnOne {a : Answers} {claimed : Run × Card} (column : Column)
    (h : Settles a claimed) : Settling claimed column (spawnOne socketPath a claimed column) := by
  obtain ⟨⟨exe, hexe⟩, hregistry⟩ := h
  cases hsome : a.sessionRegistry with
  | none =>
      simp only [spawnOne, hexe, hsome]
      exact settling_afterSpawn ..
  | some registry =>
      obtain ⟨hsession, hworkspace⟩ := hregistry registry hsome
      cases hresolve : registry.resolve (launchSession claimed.1 claimed.2) with
      | panicked e => simp [hresolve, Called.isPanicked] at hsession
      | failed e =>
          simp only [spawnOne, hexe, hsome, hresolve]
          exact .failed _
      | returned socket =>
          have hquiet := hworkspace socket hresolve
          cases hanswer : a.workspace with
          | panicked e => simp [hanswer, Called.isPanicked] at hquiet
          | failed e =>
              simp only [spawnOne, hexe, hsome, hresolve, hanswer]
              exact .failed _
          | returned w =>
              simp only [spawnOne, hexe, hsome, hresolve, hanswer]
              exact settling_afterSpawn ..

theorem abandoned_spawnOne {a : Answers} {claimed : Run × Card} (column : Column)
    (h : ¬Settles a claimed) : spawnOne socketPath a claimed column = .abandoned claimed := by
  cases hexe : a.currentExe with
  | error e => simp only [spawnOne, hexe]
  | ok exe =>
      cases hsome : a.sessionRegistry with
      | none => exact absurd ⟨⟨exe, hexe⟩, fun registry hr => by simp [hsome] at hr⟩ h
      | some registry =>
          cases hresolve : registry.resolve (launchSession claimed.1 claimed.2) with
          | panicked e => simp only [spawnOne, hexe, hsome, hresolve]
          | failed e =>
              refine absurd ⟨⟨exe, hexe⟩, fun registry' hr => ?_⟩ h
              cases hsome.symm.trans hr
              simp [hresolve, Called.isPanicked]
          | returned socket =>
              cases hanswer : a.workspace with
              | panicked e => simp only [spawnOne, hexe, hsome, hresolve, hanswer]
              | failed e =>
                  refine absurd ⟨⟨exe, hexe⟩, fun registry' hr => ?_⟩ h
                  cases hsome.symm.trans hr
                  simp [hresolve, hanswer, Called.isPanicked]
              | returned w =>
                  refine absurd ⟨⟨exe, hexe⟩, fun registry' hr => ?_⟩ h
                  cases hsome.symm.trans hr
                  simp [hresolve, hanswer, Called.isPanicked]

/-! ## Runs that no longer wait -/

/-- The store lets the statements of a launch pass. -/
structure NoStoreFault (conn : Conn) : Prop where
  finalize : conn.Passes .finalizeAfterRunUpdate
  promote : conn.Passes .promoteAfterRunUpdate
  capture : conn.Passes .captureAfterRunUpdate

/-- The run of the id is queued. -/
def IsQueuedIn (db : Db) (id : Int) : Prop := ∃ r ∈ db.runs, r.id = id ∧ r.isQueued = true

theorem not_isQueued_endedRun (r : Run) (now : String) (outcome : RunOutcome)
    (summary : Option String) :
    (endedRun r now outcome summary).isQueued = false := by simp [endedRun, Run.isQueued]

/-- A run that no longer waits never waits again. -/
theorem RunEvolves.queued_back {e : Event} {r r' : Run} (h : RunEvolves e r r')
    (hq : r'.isQueued = true) : r.isQueued = true := by
  cases h with
  | same => exact hq
  | promote _ a hqueued => exact hqueued
  | signal _ deadline paused hactive => exact hq
  | finish _ now outcome summary hopen => simp [not_isQueued_endedRun] at hq
  | hop _ next now outcome summary hopen => simp [not_isQueued_endedRun] at hq

/-- The row of a run that stays, after some events. -/
structure LaterRow (r r' : Run) : Prop where
  id : r'.id = r.id
  cardId : r'.cardId = r.cardId
  columnId : r'.columnId = r.columnId
  queued : r'.isQueued = true → r.isQueued = true

theorem LaterRow.refl (r : Run) : LaterRow r r := ⟨rfl, rfl, rfl, fun hq => hq⟩

theorem LaterRow.trans {r r' r'' : Run} (h : LaterRow r r') (h' : LaterRow r' r'') :
    LaterRow r r'' :=
  ⟨h'.id.trans h.id, h'.cardId.trans h.cardId, h'.columnId.trans h.columnId,
    fun hq => h.queued (h'.queued hq)⟩

theorem laterRow_of_evolves {e : Event} {r r' : Run} (h : RunEvolves e r r') : LaterRow r r' where
  id := h.key
  cardId := h.cardId
  columnId := by cases h <;> rfl
  queued := RunEvolves.queued_back h

theorem Via.row_forth (h : Via E db db') {r : Run} (hr : r ∈ db.runs) (hE : ¬E (.remove r.cardId)) :
    ∃ r' ∈ db'.runs, LaterRow r r' := by
  refine h.preserves (I := fun l => ∃ r' ∈ l.runs, LaterRow r r') ?_ ⟨r, hr, .refl r⟩
  rintro l e l' ⟨r', hr', hlater⟩ he hstep
  obtain ⟨r'', hr'', hev⟩ := Step.run_forth hstep hr' fun heq => hE (hlater.cardId ▸ heq ▸ he)
  exact ⟨r'', hr'', hlater.trans (laterRow_of_evolves hev)⟩

theorem not_queued_of_rewrite {run : Run} {g : Run → Run}
    (h : Life.RewritesRun db.runs db'.runs run g)
    (hg : ∀ r, (g r).isQueued = false) : ¬IsQueuedIn db' run.id := by
  rintro ⟨r', hr', hid, hq⟩
  obtain ⟨r, hr, rfl⟩ := h.mem_iff.mp hr'
  by_cases heq : r.id = run.id
  · rw [if_pos heq, hg] at hq
    cases hq
  · rw [if_neg heq] at hid
    exact heq hid

/-- Without a fault, failing a launch ends the run if it is queued. -/
theorem not_queued_failed (hfault : NoStoreFault env.conn) (id : Int) (reason : String) :
    ¬IsQueuedIn (finalState (failQueuedRun env id reason d)).db id := by
  rw [failQueuedRun, finalState_bind_readOnly fun _ => readOnly_pure _]
  cases h : store (finalizeRunUow env.conn
      { runId := id, outcome := .fail, summary := some reason, comments := [("system", reason)],
        targetColumnId := none, finalStatus := .failed, finalAwaitingReason := none, next := none })
          d with
  | ok effects d' =>
      obtain ⟨db', huow, rfl⟩ := store_ok.mp h
      obtain ⟨run, hfind, -, hlife⟩ := life_finalize rfl rfl huow
      have hid : run.id = id := Table.key_of_find? hfind
      have hruns : db'.runs = _ := congrArg Life.runs hlife
      have hrewrite : Life.RewritesRun d.db.runs db'.runs run fun r =>
          endedRun r env.conn.now .fail (some reason) := by
        rw [hruns]
        rfl
      rw [← hid]
      exact not_queued_of_rewrite hrewrite fun r => not_isQueued_endedRun r _ _ _
  | error e d' =>
      cases atomic_store (finalizeRunUow_atomic _) _ _ _ h
      rintro ⟨r, hr, hrid, hq⟩
      have hfind : d.db.run? id = some r := Table.find?_eq_some.mpr ⟨hr, hrid⟩
      obtain ⟨effects, db', huow, -⟩ := succeeds_finalizeRunUow (p :=
        { runId := id, outcome := .fail, summary := some reason, comments := [("system", reason)],
          targetColumnId := none, finalStatus := .failed, finalAwaitingReason :=
        none, next := none })
        hfault.finalize hfind (isOpen_of_isQueued hq) (by simp) (by simp) (by simp)
      have hok := store_ok.mpr ⟨db', huow, rfl⟩
      cases h.symm.trans hok

/-- Without a fault, a queued run is registered. -/
theorem tryRegister_queued (hfault : NoStoreFault env.conn) {run : Run} {id : Int}
    (hrun : d.db.run? id = some run) (hq : run.isQueued = true) (handle : RuntimeHandle)
    (started : Instant) (deadline : Option Instant) (deadlineAtMs : Option Int) :
    ∃ d', tryRegister env id handle started deadline deadlineAtMs d = .ok true d' := by
  have hmem : run ∈ d.db.runs := Table.mem_of_find? hrun
  have hcard : d.db.hasCard run.cardId = true := (d.db.foreignKeysOk.2.2.2.2.2.1 run hmem).1
  obtain ⟨card, hcard⟩ := Option.isSome_iff_exists.mp hcard
  have huow : Succeeds
      (promoteRunWithAnchorUow env.conn id handle.workspaceId handle.paneId handle.anchorPaneId
      deadlineAtMs handle.capturedSessionId) d.db fun _ _ => True :=
    succeeds_promoteRunWithAnchorUow hfault.promote hfault.capture hrun hq
  obtain ⟨promoted, db', huow, -⟩ := huow
  have hopen : ¬(run.endedAt.isSome = true ∨ run.startedAt.isSome = true) := by
    simp only [Run.isQueued, Bool.and_eq_true, Option.isNone_iff_eq_none] at hq
    simp [hq.1, hq.2]
  exact ⟨_, bind_ok.mpr
    ⟨run, d, store_ok.mpr ⟨d.db, getRun_run hrun, rfl⟩, bind_ok.mpr ⟨d, d, rfl, ite_ok.mpr
    (.inr ⟨hopen, bind_ok.mpr ⟨card, d, okOr_run hcard _,
      bind_ok.mpr ⟨promoted, _, store_ok.mpr ⟨db', huow, rfl⟩, rfl⟩⟩⟩)⟩⟩⟩

theorem not_queued_registered (hfault : NoStoreFault env.conn) (id : Int) (handle : RuntimeHandle)
    (started : Instant) (deadline : Option Instant) (deadlineAtMs : Option Int) :
    ¬IsQueuedIn (finalState (registerSpawnedRun env id handle started deadline deadlineAtMs d)).db
      id := by
  have hregisters : IsQueuedIn d.db id →
      ∃ d', tryRegister env id handle started deadline deadlineAtMs d = .ok true d' := by
    rintro ⟨r, hr, hrid, hq⟩
    exact tryRegister_queued hfault (Table.find?_eq_some.mpr ⟨hr, hrid⟩) hq handle started
      deadline deadlineAtMs
  unfold registerSpawnedRun
  rcases tryRegister_cases env id handle started deadline deadlineAtMs d with
      ⟨e, h⟩ | h | ⟨run, d', h, hreg⟩
  · rw [h]
    intro hq
    obtain ⟨d', hok⟩ := hregisters hq
    cases h.symm.trans hok
  · rw [h]
    intro hq
    obtain ⟨d', hok⟩ := hregisters hq
    cases h.symm.trans hok
  · rw [h]
    have hid : run.id = id := Table.key_of_find? hreg.found
    have hruns : d'.db.runs = _ := congrArg Life.runs hreg.promoted
    have hrewrite : Life.RewritesRun d.db.runs d'.db.runs run
        (launchOfHandle env handle deadlineAtMs).start := by
      rw [hruns]
      rfl
    rw [← hid]
    exact not_queued_of_rewrite hrewrite fun r => by simp [Life.Launch.start, Run.isQueued]

/-! ## Every step -/

/-- A claimed run still waits only while its launch goes on, unless its card was deleted. -/
structure Tracks (s : Launcher) : Prop where
  inv : Inv (life s.world.daemon.db.toTables)
  claims : ∀ c ∈ s.claimed, c.1.cardId ∈ s.deleted ∨
    ∃ r ∈ s.world.daemon.db.runs, LaterRow c.1 r ∧ (r.isQueued = true → c ∈ s.world.launching)

theorem Tracks.next_world (h : Tracks s) {s' : Launcher}
    (hvia : Via E s.world.daemon.db s'.world.daemon.db) (hclaimed : s'.claimed = s.claimed)
    (hdeleted : s.deleted ⊆ s'.deleted) (hremove : ∀ id, E (.remove id) → id ∈ s'.deleted)
    (hlaunching : ∀ c ∈ s.world.launching, ∀ r ∈ s.world.daemon.db.runs, LaterRow c.1 r →
      c ∈ s'.world.launching ∨ ¬IsQueuedIn s'.world.daemon.db c.1.id) :
    Tracks s' := by
  refine ⟨hvia.inv h.inv, fun c hc => ?_⟩
  rcases h.claims c (hclaimed ▸ hc) with hgone | ⟨r, hr, hlater, hwaits⟩
  · exact .inl (hdeleted hgone)
  by_cases hgone : c.1.cardId ∈ s'.deleted
  · exact .inl hgone
  have hkeep : ¬E (.remove r.cardId) := fun he => hgone (hlater.cardId ▸ hremove _ he)
  obtain ⟨r', hr', hrow⟩ := Via.row_forth hvia hr hkeep
  refine .inr ⟨r', hr', hlater.trans hrow, fun hq => ?_⟩
  rcases hlaunching c (hwaits (hrow.queued hq)) r hr hlater with hin | hnot
  · exact hin
  · exact absurd ⟨r', hr', (hlater.trans hrow).id, hq⟩ hnot

theorem stepCauses_remove {l : Label} {id : Int} (h : StepCauses cfg db l (.remove id)) :
    ∃ env, l = .request env (.cardDelete id) := by
  cases h with
  | request env r _ h =>
      cases h
      exact ⟨env, rfl⟩
  | watch env x _ h => cases h

/-- A scope of a launch ends no other launch. -/
theorem mem_launching_spawn (w : World) {c claimed : Run × Card} {column : Column} {e : Dispatch}
    (he : Settling claimed column e) (hc : c ∈ w.launching) (hne : c ≠ claimed) :
    c ∈ (w.next cfg (.dispatch env e)).launching := by
  cases he with
  | registered handle =>
      simp only [World.next, serveDispatch]
      split
      · exact (List.mem_erase_of_ne hne).mpr hc
      · exact hc
  | failed reason =>
      simp only [World.next, serveDispatch]
      split
      · exact (List.mem_erase_of_ne hne).mpr hc
      · exact hc

/-- The run of a launch that registers or fails no longer waits. -/
theorem not_queued_settling (hfault : NoStoreFault env.conn) {w : World} {claimed : Run × Card}
    {column : Column} {e : Dispatch} (he : Settling claimed column e) (hc : claimed ∈ w.launching) :
    ¬IsQueuedIn (w.next cfg (.dispatch env e)).daemon.db claimed.1.id := by
  cases he with
  | registered handle =>
      simp only [World.next, serveDispatch, hc, if_true]
      exact not_queued_registered hfault _ _ _ _ _
  | failed reason =>
      simp only [World.next, serveDispatch, hc, if_true]
      exact not_queued_failed hfault _ _

/-- No store fault, and every launch settles. -/
def AllSettle (_ : Launcher) : LaunchStep → Prop
  | .spawn env a claimed _ => NoStoreFault env.conn ∧ Settles a claimed
  | _ => True

theorem Tracks.spawn (h : Tracks s) {a : Answers} {claimed : Run × Card} {column : Column}
    (hfault : NoStoreFault env.conn) (hsettles : Settles a claimed) :
    Tracks (s.next cfg socketPath (.spawn env a claimed column)) := by
  have he : Settling claimed column (spawnOne socketPath a claimed column) :=
    settling_spawnOne column hsettles
  simp only [Launcher.next]
  split
  · refine h.next_world (via_step_daemon cfg h.inv _) rfl (List.Subset.refl _)
      (fun id hcauses => ?_) fun c hc _ _ _ => ?_
    · obtain ⟨_, hlabel⟩ := stepCauses_remove hcauses
      cases hlabel
    · by_cases heq : c = claimed
      · rw [heq] at hc ⊢
        exact .inr (not_queued_settling hfault he hc)
      · exact .inl (mem_launching_spawn s.world he hc heq)
  · exact h

theorem Tracks.readColumn (h : Tracks s) (env : Env) (claimed : Run × Card) :
    Tracks (s.next cfg socketPath (.readColumn env claimed)) := by
  simp only [Launcher.next]
  split
  · cases hread : requireColumn claimed.1.columnId s.world.daemon.db with
    | ok column db => exact ⟨h.inv, h.claims⟩
    | error e db =>
        -- the column of a row that is there is there too
        have hgone : ∀ r ∈ s.world.daemon.db.runs, ¬LaterRow claimed.1 r := by
          intro r hr hlater
          have hcolumn : s.world.daemon.db.hasColumn r.columnId = true :=
            (s.world.daemon.db.foreignKeysOk.2.2.2.2.2.1 r hr).2
          obtain ⟨column, hfind⟩ := Option.isSome_iff_exists.mp hcolumn
          rw [hlater.columnId] at hfind
          cases hread.symm.trans (requireColumn_run hfind)
        refine h.next_world (via_step_daemon cfg h.inv _) rfl (List.Subset.refl _)
          (fun id hcauses => ?_) fun c hc r hr hlater => ?_
        · obtain ⟨_, hlabel⟩ := stepCauses_remove hcauses
          cases hlabel
        · by_cases heq : c = claimed
          · exact absurd (heq ▸ hlater) (hgone r hr)
          · exact .inl ((List.mem_erase_of_ne heq).mpr hc)
  · exact h

theorem Tracks.claim (h : Tracks s) (env : Env) : Tracks (s.after cfg (.dispatch env .claim)) := by
  simp only [Launcher.after]
  cases hpass : s.world.pass with
  | none => exact h
  | some active =>
      simp only [Option.isSome_some, if_true, World.next, serve_claim hpass]
      refine ⟨h.inv, fun c hc => .inr ?_⟩
      obtain ⟨hr, -⟩ := mem_queuedRunsWithCards.mp (claimed_subset hc)
      exact ⟨c.1, hr, .refl c.1, fun _ => hc⟩

theorem Tracks.other (h : Tracks s) (l : Label) : Tracks (s.next cfg socketPath (.other l)) := by
  have hvia := via_step_daemon cfg h.inv l
  simp only [Launcher.next]
  split
  · exact h
  · next hends =>
      -- a step that is no claim, deletes no card and ends no launch
      have hplain (hlaunching : (s.world.next cfg l).launching = s.world.launching)
          (hkeep : ∀ env id, l ≠ .request env (.cardDelete id)) :
          Tracks { s with world := s.world.next cfg l } := by
        refine h.next_world hvia rfl (List.Subset.refl _) (fun id hcauses => ?_) fun c hc _ _ _ =>
          .inl (hlaunching ▸ hc)
        obtain ⟨env, hlabel⟩ := stepCauses_remove hcauses
        exact absurd hlabel (hkeep env id)
      cases l with
      | request env r =>
          cases r with
          | cardDelete id =>
              refine h.next_world hvia rfl (List.subset_cons_self _ _)
                (fun id' hcauses => ?_) fun c hc _ _ _ => .inl hc
              obtain ⟨_, hlabel⟩ := stepCauses_remove hcauses
              cases hlabel
              exact List.mem_cons_self
          | _ => exact hplain rfl (by simp)
      | watch env x => exact hplain rfl (by simp)
      | dispatch env x =>
          cases x with
          | readActive =>
              refine hplain ?_ (by simp)
              simp only [World.next, serveDispatch]
              split <;> rfl
          | claim => exact h.claim env
          | registered c column handle => exact absurd rfl hends
          | failed c reason => exact absurd rfl hends
          | abandoned c => exact absurd rfl hends
          | warned cardId body => exact hplain rfl (by simp)
      | adopt env x => exact hplain (adopt_claims env s.world x).1 (by simp)
      | restart => exact ⟨hvia.inv h.inv, fun c hc => by cases hc⟩

theorem tracks_of_reachable (h : (launches cfg socketPath).ReachableBy AllSettle s) : Tracks s := by
  apply h.invariant
  · rintro s rfl
    exact ⟨inv_fresh, fun c hc => by cases hc⟩
  · rintro s l _ htracks hok rfl
    cases l with
    | other l => exact htracks.other l
    | readColumn env claimed => exact htracks.readColumn env claimed
    | spawn env a claimed column => exact htracks.spawn hok.1 hok.2

/-! ## Every claimed run -/

/-- The started or ended row of a claimed run. -/
def Settled (db : Db) (claimed : Run × Card) : Prop :=
  ∃ r ∈ db.runs, r.id = claimed.1.id ∧ r.cardId = claimed.1.cardId ∧
    (r.startedAt.isSome ∨ r.endedAt.isSome)

theorem claimed_runs_settle (h : (launches cfg socketPath).ReachableBy AllSettle s) :
    -- a claimed run whose launch has ended is started or ended, or its card was deleted meanwhile
    (∀ c ∈ s.claimed, c ∈ s.world.launching ∨ c.1.cardId ∈ s.deleted ∨
      Settled s.world.daemon.db c) ∧
    -- a launch takes its run out of the queue exactly when it settles
    ∀ env a c column, (c, column) ∈ s.opened → c ∈ s.world.launching → NoStoreFault env.conn →
      IsQueuedIn s.world.daemon.db c.1.id →
      (¬IsQueuedIn (s.next cfg socketPath (.spawn env a c column)).world.daemon.db c.1.id ↔
        Settles a c) := by
  constructor
  · intro c hc
    rcases (tracks_of_reachable h).claims c hc with hgone | ⟨r, hr, hlater, hwaits⟩
    · exact .inr (.inl hgone)
    · by_cases hin : c ∈ s.world.launching
      · exact .inl hin
      · refine .inr (.inr ⟨r, hr, hlater.id, hlater.cardId, ?_⟩)
        have hq : r.isQueued ≠ true := fun hq => hin (hwaits hq)
        simp only [Run.isQueued, ne_eq, Bool.and_eq_true, Option.isNone_iff_eq_none, not_and_or]
          at hq
        exact hq.imp Option.isSome_iff_ne_none.mpr Option.isSome_iff_ne_none.mpr
  · intro env a c column hopened hlaunching hfault hq
    simp only [Launcher.next, hopened, if_true]
    constructor
    · intro hnot
      by_contra hsettles
      rw [abandoned_spawnOne column hsettles] at hnot
      exact hnot hq
    · intro hsettles
      exact not_queued_settling hfault (settling_spawnOne column hsettles) hlaunching

/-! ## A pass over one queued card -/

/-- The answers of a launch in the default session, up to the end of its workspace resolution. -/
def answersWith (workspace : Called ResolvedWorkspace) : Answers where
  currentExe := .ok "/usr/bin/boardd"
  sessionRegistry := some
    { defaultSocket := "/herdr.sock", resolve := fun _ => .returned "/herdr.sock" }
  workspace := workspace
  spawn := fun _ => .failed "herdr is not running"

/-- A pass that launches the first run it claims. -/
def passWith (a : Answers) (s : Launcher) : Launcher :=
  let s := (s.next oneAtATime "/board.sock" (.other (.dispatch permissiveEnv .readActive))).next
    oneAtATime "/board.sock" (.other (.dispatch permissiveEnv .claim))
  match s.world.launching with
  | [] => s
  | c :: _ =>
      let s := s.next oneAtATime "/board.sock" (.readColumn permissiveEnv c)
      match s.opened with
      | [] => s
      | (c, column) :: _ => s.next oneAtATime "/board.sock" (.spawn permissiveEnv a c column)

def queuedLauncher : Launcher :=
  queueOneCard.foldl (fun s l => s.next oneAtATime "/board.sock" (.other l)) (.start Db.fresh)

/-- No store fault. -/
def NoFault (_ : Launcher) : LaunchStep → Prop
  | .spawn env _ _ _ => NoStoreFault env.conn
  | _ => True

theorem reachable_queuedLauncher {ok : Launcher → LaunchStep → Prop}
    (hok : ∀ s l, ok s (.other l)) :
    (launches oneAtATime "/board.sock").ReachableBy ok queuedLauncher := by
  have hfold : ∀ (ls : List Label) (s : Launcher),
      (launches oneAtATime "/board.sock").ReachableBy ok s →
      (launches oneAtATime "/board.sock").ReachableBy ok
        (ls.foldl (fun s l => s.next oneAtATime "/board.sock" (.other l)) s) := by
    intro ls
    induction ls with
    | nil => exact fun s h => h
    | cons l ls ih => exact fun s h => ih _ (h.step (hok s l) rfl)
  exact hfold _ _ (.init rfl)

theorem reachable_passWith {ok : Launcher → LaunchStep → Prop} {a : Answers}
    (hother : ∀ s l, ok s (.other l)) (hread : ∀ s c, ok s (.readColumn permissiveEnv c))
    (hspawn : ∀ s c column, ok s (.spawn permissiveEnv a c column))
    (h : (launches oneAtATime "/board.sock").ReachableBy ok s) :
    (launches oneAtATime "/board.sock").ReachableBy ok (passWith a s) := by
  have hclaimed := (h.step (hother _ (.dispatch permissiveEnv .readActive)) rfl).step
    (hother _ (.dispatch permissiveEnv .claim)) rfl
  unfold passWith
  dsimp only
  split
  · exact hclaimed
  · next c _ _ =>
      have hopened := hclaimed.step (hread _ c) rfl
      split
      · exact hopened
      · next c column _ _ => exact hopened.step (hspawn _ c column) rfl

theorem noStoreFault_permissive : NoStoreFault permissiveEnv.conn :=
  ⟨passes_of_none rfl _, passes_of_none rfl _, passes_of_none rfl _⟩

/-- A workspace resolution that fails ends the run it was for. -/
theorem claimed_runs_settle_failed :
    (passWith (answersWith (.failed "no such workspace")) queuedLauncher).claimed.map
      (fun c => c.1.id) = [1] ∧
      ∀ c ∈ (passWith (answersWith (.failed "no such workspace")) queuedLauncher).claimed,
        c ∈ (passWith (answersWith (.failed "no such workspace")) queuedLauncher).world.launching ∨
          c.1.cardId ∈ (passWith (answersWith (.failed "no such workspace"))
            queuedLauncher).deleted ∨
          Settled (passWith (answersWith (.failed "no such workspace"))
            queuedLauncher).world.daemon.db c := by
  have hsettles : ∀ c, Settles (answersWith (.failed "no such workspace")) c := by
    intro c
    refine ⟨⟨_, rfl⟩, ?_⟩
    rintro registry ⟨⟩
    exact ⟨rfl, fun _ _ => rfl⟩
  have hreach : (launches oneAtATime "/board.sock").ReachableBy AllSettle
      (passWith (answersWith (.failed "no such workspace")) queuedLauncher) :=
    reachable_passWith (fun _ _ => trivial) (fun _ _ => trivial)
      (fun _ c _ => ⟨noStoreFault_permissive, hsettles c⟩)
        (reachable_queuedLauncher fun _ _ => trivial)
  exact ⟨by decide +kernel, (claimed_runs_settle hreach).1⟩

/-- Two passes whose workspace resolution panics: both complete, and both leave the run they
claimed queued. -/
theorem workspace_panic_leaves_queued :
    (launches oneAtATime "/board.sock").ReachableBy NoFault
        (passWith (answersWith (.panicked "index out of bounds")) queuedLauncher) ∧
      ∀ s ∈ [passWith (answersWith (.panicked "index out of bounds")) queuedLauncher,
          passWith (answersWith (.panicked "index out of bounds"))
            (passWith (answersWith (.panicked "index out of bounds")) queuedLauncher)],
        s.world.launching = [] ∧ s.deleted = [] ∧ s.claimed.map (fun c => c.1.id) = [1] ∧
          s.claimed = s.world.daemon.db.queuedRunsWithCards :=
  ⟨reachable_passWith (fun _ _ => trivial) (fun _ _ => trivial)
    (fun _ _ _ => noStoreFault_permissive)
    (reachable_queuedLauncher fun _ _ => trivial), by decide +kernel⟩

end HerdrBoard.Scheduling
