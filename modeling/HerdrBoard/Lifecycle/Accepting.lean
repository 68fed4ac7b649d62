import HerdrBoard.Core.Lemmas.Success
import HerdrBoard.Lifecycle.Watches

/-!
# Finalizations that go through

A finalization of an open run commits exactly when the hop of its transition, if it makes one, can
be prepared. -/

open Lib HerdrBoard.Core HerdrBoard.Daemon

namespace HerdrBoard.Lifecycle

variable {cfg : Config} {env : Env} {db db' : Db} {d d' : DaemonState}

/-! ## Hops that can be prepared -/

/-- The effective settings are valid, and the harness can be invoked with them. -/
def EnqueueAccepted (cfg : Config) (env : Env) (db : Db) (card : Card) (column : Column) : Prop :=
  validateEffectiveSettings env.capabilitiesFor card column = .ok () ∧
    ∃ settings invocation, effectiveSettings card column = .ok settings ∧
      buildInvocation settings.harness cfg.harness settings (enqueuePlan db card column false)
        (targetSession (enqueuePlan db card column false) env.uuid)
        (assemblePrompt card.description (db.listComments card.id)) = .ok invocation

/-- The hop that the outcome leads to, if it enqueues a run, can be prepared. -/
def HopAccepted (cfg : Config) (env : Env) (db : Db) (hops : Nat) (current : Column) (card : Card)
    (outcome : RunOutcome) : Prop :=
  ∀ target, transitionTarget current (db.listColumns card.boardId) outcome = some target →
    target.trigger = .auto →
    autoHopSuppressed db card = false → nextHop hops ≤ MAX_AUTO_HOPS →
    EnqueueAccepted cfg env db card target

theorem prepareEnqueueValues_iff {card : Card} {columnId : Int} {column : Column}
    (hcolumn : db.column? columnId = some column) :
    (∃ p, prepareEnqueueValues cfg env card columnId false db = .ok p db) ↔
      EnqueueAccepted cfg env db card column := by
  simp only [prepareEnqueueValues, bind_ok, get_ok, requireColumn_ok, fromExcept_ok,
    mapError_ok, pure_ok]
  constructor
  · rintro ⟨_, _, _, ⟨hfind, rfl⟩, _, _, ⟨rfl, rfl⟩, _, _, ⟨hvalid, rfl⟩, settings, _,
      ⟨hsettings, rfl⟩, invocation, _, ⟨hinvoke, rfl⟩, -⟩
    cases hcolumn.symm.trans hfind
    exact ⟨hvalid, settings, invocation, hsettings, hinvoke⟩
  · rintro ⟨hvalid, settings, invocation, hsettings, hinvoke⟩
    exact ⟨_, _, _, ⟨hcolumn, rfl⟩, _, _, ⟨rfl, rfl⟩, (), _, ⟨hvalid, rfl⟩, settings, _,
      ⟨hsettings, rfl⟩, invocation, _, ⟨hinvoke, rfl⟩, rfl, rfl⟩

/-! ## Plans that can be carried out -/

/-- The checks of the unit of work that carries out the plan for the card. -/
structure PlanFits (db : Db) (cardId : Int) (plan : TransitionPlan) : Prop where
  status : plan.finalStatus ≠ .awaiting
  target : ∀ columnId, plan.targetColumnId = some columnId → db.boardMatches columnId cardId = true
  next : ∀ next, plan.next = some next →
    next.cardId = cardId ∧ db.boardMatches next.columnId cardId = true

theorem planFits_plain {cardId : Int} {comments : List String} {target : Option Int}
    {status : CardStatus} (hstatus : status ≠ .awaiting)
    (htarget : ∀ columnId, target = some columnId → db.boardMatches columnId cardId = true) :
    PlanFits db cardId (.plain comments target status) where
  status := hstatus
  target := htarget
  next _ h := by cases h

theorem planFits_stayPut {cardId : Int} (outcome : RunOutcome) :
    PlanFits db cardId (stayPut outcome) := by
  refine planFits_plain ?_ fun _ h => by cases h
  by_cases h : outcome = .ok <;> simp [h]

/-- The target of a transition is a column of the board. -/
theorem transitionTarget_some {current target : Column} {boardId : Int} {outcome : RunOutcome}
    (h : transitionTarget current (db.listColumns boardId) outcome = some target) :
    db.column? target.id = some target ∧ target.boardId = boardId := by
  obtain ⟨id, -, hfind⟩ := Option.bind_eq_some_iff.mp h
  obtain ⟨hmem, hboard⟩ := Table.mem_ordered.mp (List.mem_of_find?_eq_some hfind)
  exact ⟨Table.find?_key hmem, by simpa using hboard⟩

section Plan

variable {hops : Nat} {run : Run} {card : Card} {current : Column} {outcome : RunOutcome}
    {elapsed : Option Int}

/-- A planned transition fits the card, and its hop could be prepared. -/
theorem planTransition_ok {plan : TransitionPlan} (hcard : db.card? card.id = some card)
    (hcurrent : db.column? run.columnId = some current)
    (h : planTransition cfg env hops run card outcome elapsed db = .ok plan db') :
    PlanFits db card.id plan ∧ HopAccepted cfg env db hops current card outcome := by
  obtain ⟨found, hfound, h⟩ := planTransition_cases h
  cases hcurrent.symm.trans hfound
  have hmatches : ∀ target, transitionTarget current (db.listColumns card.boardId) outcome =
      some target →
      ∀ columnId, some target.id = some columnId → db.boardMatches columnId card.id = true := by
    intro target htarget columnId heq
    obtain ⟨hfind, hboard⟩ := transitionTarget_some htarget
    cases heq
    exact boardMatches_iff.mpr ⟨target, hfind, by rw [hcard, Option.map_some, hboard]⟩
  cases h with
  | stay comments hnone =>
      refine ⟨planFits_plain ?_ fun _ h => (by cases h), fun target htarget => ?_⟩
      · by_cases ho : outcome = .ok <;> simp [ho]
      · rw [hnone] at htarget
        cases htarget
  | manual comments target htarget hmanual =>
      refine ⟨planFits_plain (by simp) (hmatches target htarget), fun t ht hauto => ?_⟩
      cases htarget.symm.trans ht
      exact absurd hauto hmanual
  | suppressed comments target htarget hauto hsuppressed =>
      refine ⟨planFits_plain (by simp) (hmatches target htarget), fun t ht _ hs => ?_⟩
      rw [hsuppressed] at hs
      cases hs
  | stopped comments target htarget hauto hlimit =>
      exact ⟨planFits_plain (by simp) (hmatches target htarget),
        fun t ht _ _ hle => absurd hle hlimit⟩
  | hop comments target prepared htarget hauto hlimit hprepared =>
      obtain ⟨hid, hcardId⟩ := prepared_columnId hprepared
      refine ⟨⟨by simp [TransitionPlan.plain], hmatches target htarget, fun next hnext => ?_⟩,
        fun t ht _ _ _ => ?_⟩
      · cases hnext
        rw [hid]
        exact ⟨hcardId, hmatches target htarget target.id rfl⟩
      · cases htarget.symm.trans ht
        exact (prepareEnqueueValues_iff (transitionTarget_some htarget).1).mp ⟨prepared, hprepared⟩

/-- A transition whose hop can be prepared is planned. -/
theorem succeeds_planTransition (hcurrent : db.column? run.columnId = some current)
    (h : HopAccepted cfg env db hops current card outcome) :
    Succeeds (planTransition cfg env hops run card outcome elapsed) db fun _ db' => db' = db := by
  refine succeeds_bind_run (requireColumn_run hcurrent) (succeeds_get_bind ?_)
  unfold decideTransition
  cases htarget : transitionTarget current (db.listColumns card.boardId) outcome with
  | none => exact succeeds_pure rfl
  | some target =>
      by_cases hauto : target.trigger = .auto
      · cases hsuppressed : autoHopSuppressed db card with
        | true =>
            simp only [hauto, decide_true, not_true_eq_false, ↓reduceIte]
            exact succeeds_pure rfl
        | false =>
            by_cases hlimit : nextHop hops ≤ MAX_AUTO_HOPS
            · simp only [hauto, decideAutoHop, not_lt.mpr hlimit, decide_true,
                not_true_eq_false, ↓reduceIte]
              have haccepted : EnqueueAccepted cfg env db
                  { card with columnId := target.id } target :=
                h target htarget hauto hsuppressed hlimit
              obtain ⟨prepared, hprep⟩ :=
                (prepareEnqueueValues_iff (transitionTarget_some htarget).1).mpr haccepted
              exact succeeds_bind_run hprep (succeeds_pure rfl)
            · simp only [hauto, decideAutoHop, not_le.mp hlimit, decide_true,
                not_true_eq_false, ↓reduceIte]
              exact succeeds_pure rfl
      · simp only [hauto]
        exact succeeds_pure rfl

end Plan

/-! ## The end of one run -/

section Finalize

variable {runId : Int} {outcome : RunOutcome} {summary extraComment : Option String}
  {kill transition : Bool} {timeoutAt : Option Instant} {run : Run} {card : Card}

theorem store_run {α : Type} {x : StoreM α} {a : α} (h : x d.db = .ok a d.db) :
    store x d = .ok a d :=
  store_ok.mpr ⟨d.db, h, rfl⟩

theorem store_refused {α : Type} {x : StoreM α} {e : Error} (h : x d.db = .error e d.db) :
    store x d = .error e d := by
  rw [store, zoom, h]

/-- Every run has its card and its column. -/
theorem card_of_run (hr : run ∈ db.runs) : ∃ card, db.card? run.cardId = some card := by
  obtain ⟨card, hmem, hid⟩ := Db.run_card hr
  exact ⟨card, Table.find?_eq_some.mpr ⟨hmem, hid⟩⟩

theorem column_of_run (hr : run ∈ db.runs) : ∃ column, db.column? run.columnId = some column := by
  obtain ⟨column, hmem, hid⟩ := Db.run_column hr
  exact ⟨column, Table.find?_eq_some.mpr ⟨hmem, hid⟩⟩

/-- The rest of a finalization whose plan is made. -/
def carryOut (env : Env) (runId : Int) (outcome : RunOutcome) (summary extraComment : Option String)
    (kill : Bool) (cardId : Int) (plan : TransitionPlan) : DaemonM (Option (Run × Card)) := do
  let effects ← store (finalizeRunUow env.conn (plan.finalize runId outcome summary extraComment))
  modify fun d => settleFinalized d runId cardId plan.nextHops kill
  pure (some (effects.finishedRun, effects.card))

theorem finalizeRunInner_due (hrun : d.db.run? runId = some run) (hopen : run.isOpen = true)
    (hdue : timeoutAt.any (timeoutStale d run) = false)
    (hcard : d.db.card? run.cardId = some card) :
    finalizeRunInner cfg env runId outcome summary extraComment kill transition timeoutAt d = ((do
      let plan ←
        if transition then
          store (planTransition cfg env ((d.sched.chainHops.lookup card.id).getD 0) run card outcome
            ((d.sched.active.lookup runId).map fun active => saturatingDurationSince env.instant
              active.started / 1000))
        else pure (stayPut outcome)
      carryOut env runId outcome summary extraComment kill card.id plan) :
      DaemonM (Option (Run × Card))) d := by
  have hended : ¬run.endedAt.isSome = true := by simpa [Run.isOpen] using hopen
  unfold finalizeRunInner
  rw [run_bind, store_run (getRun_run hrun)]
  simp only [hended, ↓reduceIte, Bool.false_eq_true]
  rw [run_bind]
  show (if timeoutAt.any (timeoutStale d run) = true then _ else _ : DaemonM (Option (Run × Card)))
      d = _
  rw [if_neg (by simp [hdue]), run_bind, store_run (requireCard_run hcard)]
  rfl

theorem finalizeRunInner_none (hrun : d.db.run? runId = some run) (hopen : run.isOpen = true)
    (hstale : timeoutAt.any (timeoutStale d run) = true) :
    finalizeRunInner cfg env runId outcome summary extraComment kill transition timeoutAt d =
      .ok none d := by
  have hended : ¬run.endedAt.isSome = true := by simpa [Run.isOpen] using hopen
  unfold finalizeRunInner
  rw [run_bind, store_run (getRun_run hrun)]
  simp only [hended, ↓reduceIte, Bool.false_eq_true]
  rw [run_bind]
  show (if timeoutAt.any (timeoutStale d run) = true then _ else _ : DaemonM (Option (Run × Card)))
      d = _
  rw [if_pos hstale]
  rfl

/-- What it committed: the run's end under some plan. -/
def CarriesOut (env : Env) (runId : Int) (outcome : RunOutcome)
    (summary extraComment : Option String) (kill : Bool)
    (card : Card) (d d' : DaemonState) : Prop :=
  ∃ (plan : TransitionPlan) (effects : FinalizeEffects),
    finalizeRunUow env.conn (plan.finalize runId outcome summary extraComment) d.db =
    .ok effects d'.db ∧ d' = settleFinalized { d with db := d'.db } runId card.id plan.nextHops kill

theorem passes_of_finalize {conn : Conn} {p : FinalizeRun} {effects : FinalizeEffects}
    (h : finalizeRunUow conn p db = .ok effects db') : conn.Passes .finalizeAfterRunUpdate := by
  obtain ⟨ids, htx⟩ := finalizeRunUow_ok h
  simp only [finalizeRunTx, bind_ok] at htx
  obtain ⟨_, _, -, _, _, -, _, _, -, _, _, -, _, _, hfault, -⟩ := htx
  exact passes_of_ok hfault

/-- A finalization that moves nothing and queues nothing goes through, unless the store's fault
hook stops it. -/
theorem finalizeRunUow_cases (conn : Conn) (p : FinalizeRun) (hrun : db.run? p.runId = some run)
    (hopen : run.isOpen = true) (hstatus : p.finalStatus = .failed)
    (hreason : p.finalAwaitingReason = none)
    (htarget : p.targetColumnId = none) (hnext : p.next = none) :
    (conn.Passes .finalizeAfterRunUpdate ∧
      ∃ effects db', finalizeRunUow conn p db = .ok effects db') ∨
      (¬conn.Passes .finalizeAfterRunUpdate ∧ ∃ e, finalizeRunUow conn p db = .error e db) := by
  by_cases hpass : conn.Passes .finalizeAfterRunUpdate
  · obtain ⟨effects, db', h, -⟩ :=
      succeeds_finalizeRunUow hpass hrun hopen (by simp [hstatus, hreason])
      (by simp [htarget]) (by simp [hnext])
    exact .inl ⟨hpass, effects, db', h⟩
  · cases h : finalizeRunUow conn p db with
    | ok effects db' => exact absurd (passes_of_finalize h) hpass
    | error e db' =>
        obtain rfl := finalizeRunUow_atomic _ _ _ _ h
        exact .inr ⟨hpass, e, rfl⟩

theorem carryOut_ok {plan : TransitionPlan} (hrun : d.db.run? runId = some run)
    (hopen : run.isOpen = true) (hid : card.id = run.cardId)
    (hpass : env.conn.Passes .finalizeAfterRunUpdate) (hfits : PlanFits d.db card.id plan) :
    ∃ finished d', carryOut env runId outcome summary extraComment kill card.id plan d =
      .ok (some finished) d' ∧
      CarriesOut env runId outcome summary extraComment kill card d d' := by
  have huow : Succeeds
      (finalizeRunUow env.conn (plan.finalize runId outcome summary extraComment)) d.db
      fun _ _ => True := by
    refine succeeds_finalizeRunUow hpass hrun hopen ?_ ?_ ?_
    · simp [TransitionPlan.finalize, hfits.status]
    · rw [← hid]
      exact hfits.target
    · intro next hnext
      obtain ⟨prepared, hprepared, rfl⟩ := Option.map_eq_some_iff.mp hnext
      rw [← hid]
      exact hfits.next prepared hprepared
  obtain ⟨effects, db', huow, -⟩ := huow
  have heffects : store
      (finalizeRunUow env.conn (plan.finalize runId outcome summary extraComment)) d =
      .ok effects { d with db := db' } := store_ok.mpr ⟨db', huow, rfl⟩
  refine ⟨(effects.finishedRun, effects.card), _, bind_run heffects, plan, effects, huow, rfl⟩

theorem carryOut_error {plan : TransitionPlan} {cardId : Int}
    (hfault : ¬env.conn.Passes .finalizeAfterRunUpdate) :
    ∃ e, carryOut env runId outcome summary extraComment kill cardId plan d = .error e d := by
  cases hfin : store (finalizeRunUow env.conn (plan.finalize runId outcome summary extraComment))
      d with
  | error e t =>
      obtain rfl := atomic_store (finalizeRunUow_atomic _) _ _ _ hfin
      exact ⟨e, by rw [carryOut, run_bind, hfin]⟩
  | ok effects t =>
      obtain ⟨_, huow, -⟩ := store_ok.mp hfin
      exact absurd (passes_of_finalize huow) hfault

/-- What decides the finalization of an open run: the store's fault hook, and the hop of its
transition if it makes one. -/
def FinalizeAccepted (cfg : Config) (env : Env) (transition : Bool)
    (outcome : RunOutcome) (run : Run) (d : DaemonState) : Prop :=
  env.conn.Passes .finalizeAfterRunUpdate ∧
    (transition = true → ∀ card current, d.db.card? run.cardId = some card →
      d.db.column? run.columnId = some current →
      HopAccepted cfg env d.db ((d.sched.chainHops.lookup run.cardId).getD 0) current card outcome)

/-- An open run whose finalization is accepted ends. -/
theorem finalizeRunInner_accepted (hrun : d.db.run? runId = some run) (hopen : run.isOpen = true)
    (hdue : timeoutAt.any (timeoutStale d run) = false) (hcard : d.db.card? run.cardId = some card)
    (haccepted : FinalizeAccepted cfg env transition outcome run d) :
    ∃ finished d', finalizeRunInner cfg env runId outcome summary extraComment kill transition
        timeoutAt d = .ok (some finished) d' ∧
      CarriesOut env runId outcome summary extraComment kill card d d' := by
  have hid : card.id = run.cardId := Table.key_of_find? hcard
  obtain ⟨hpass, hhop⟩ := haccepted
  obtain ⟨current, hcurrent⟩ := column_of_run (Table.mem_of_find? hrun)
  rw [finalizeRunInner_due hrun hopen hdue hcard]
  cases transition with
  | false => exact carryOut_ok hrun hopen hid hpass (planFits_stayPut outcome)
  | true =>
      obtain ⟨plan, _, hplan, rfl⟩ :=
        @succeeds_planTransition cfg env d.db _ run card current outcome
        ((d.sched.active.lookup runId).map fun active => saturatingDurationSince env.instant
        active.started / 1000) hcurrent (hhop rfl card current hcard hcurrent)
      obtain ⟨hfits, -⟩ := planTransition_ok (hid ▸ hcard) hcurrent hplan
      rw [hid]
      simp only [↓reduceIte]
      rw [bind_run (store_run hplan), ← hid]
      exact carryOut_ok hrun hopen hid hpass hfits

/-- An open run whose finalization is refused stays as it is. -/
theorem finalizeRunInner_refused (hrun : d.db.run? runId = some run) (hopen : run.isOpen = true)
    (hdue : timeoutAt.any (timeoutStale d run) = false)
    (hrefused : ¬FinalizeAccepted cfg env transition outcome run d) :
    ∃ e, finalizeRunInner cfg env runId outcome summary extraComment kill transition timeoutAt d =
      .error e d := by
  obtain ⟨card, hcard⟩ := card_of_run (Table.mem_of_find? hrun)
  have hid : card.id = run.cardId := Table.key_of_find? hcard
  obtain ⟨current, hcurrent⟩ := column_of_run (Table.mem_of_find? hrun)
  rw [finalizeRunInner_due hrun hopen hdue hcard]
  cases transition with
  | false => exact carryOut_error fun hpass => hrefused ⟨hpass, by simp⟩
  | true =>
      simp only [↓reduceIte]
      rw [run_bind]
      cases hplan : store (planTransition cfg env ((d.sched.chainHops.lookup card.id).getD 0)
          run card outcome
          ((d.sched.active.lookup runId).map fun active => saturatingDurationSince env.instant
            active.started / 1000)) d with
      | error e t =>
          obtain rfl := (readOnly_store (readOnly_planTransition _ _ _ _ _)).atomic _ _ _ hplan
          exact ⟨e, rfl⟩
      | ok plan t =>
          obtain rfl := (readOnly_store (readOnly_planTransition _ _ _ _ _)).ok hplan
          obtain ⟨_, hplanned, -⟩ := store_ok.mp hplan
          obtain ⟨-, haccepted⟩ := planTransition_ok (hid ▸ hcard) hcurrent hplanned
          refine carryOut_error fun hpass =>
            hrefused ⟨hpass, fun _ card' current' hcard' hcurrent' => ?_⟩
          cases hcard.symm.trans hcard'
          cases hcurrent.symm.trans hcurrent'
          exact hid ▸ haccepted

end Finalize

end HerdrBoard.Lifecycle
