import HerdrBoard.Lifecycle.Requests

/-!
# What watchers and launches do to cards and runs
-/

open Lib HerdrBoard.Core HerdrBoard.Daemon

namespace HerdrBoard.Lifecycle

variable {cfg : Config} {env : Env} {E : Event → Prop} {db db' : Db} {d d' : DaemonState}

/-! ## Planning a finalization -/

theorem readOnly_planTransition (hops : Nat) (run : Run) (card : Card) (outcome : RunOutcome)
    (elapsed : Option Int) : ReadOnly (planTransition cfg env hops run card outcome elapsed) := by
  refine (readOnly_requireColumn _).bind fun current => readOnly_get.bind fun db => ?_
  dsimp only
  split
  · exact readOnly_pure _
  · split
    · exact readOnly_pure _
    · split
      · exact readOnly_pure _
      · split
        · exact (readOnly_prepareEnqueueValues _ _ _).bind fun _ => readOnly_pure _
        · exact readOnly_pure _
        · exact readOnly_throw _

/-- What the plan of a transition can be, with what led to it. -/
inductive PlanCase (cfg : Config) (env : Env) (db : Db) (hops : Nat) (current : Column)
    (card : Card) (outcome : RunOutcome) : TransitionPlan → Prop
  | stay (comments : List String)
      (hnone : transitionTarget current (db.listColumns card.boardId) outcome = none) :
      PlanCase cfg env db hops current card outcome
        (.plain comments none (if outcome = .ok then .done else .failed))
  | manual (comments : List String) (target : Column)
      (htarget : transitionTarget current (db.listColumns card.boardId) outcome = some target)
      (hmanual : target.trigger ≠ .auto) :
      PlanCase cfg env db hops current card outcome (.plain comments (some target.id) .idle)
  | suppressed (comments : List String) (target : Column)
      (htarget : transitionTarget current (db.listColumns card.boardId) outcome = some target)
      (hauto : target.trigger = .auto) (hsuppressed : autoHopSuppressed db card = true) :
      PlanCase cfg env db hops current card outcome (.plain comments (some target.id) .failed)
  | stopped (comments : List String) (target : Column)
      (htarget : transitionTarget current (db.listColumns card.boardId) outcome = some target)
      (hauto : target.trigger = .auto) (hlimit : ¬nextHop hops ≤ MAX_AUTO_HOPS) :
      PlanCase cfg env db hops current card outcome (.plain comments (some target.id) .failed)
  | hop (comments : List String) (target : Column) (prepared : PreparedEnqueue)
      (htarget : transitionTarget current (db.listColumns card.boardId) outcome = some target)
      (hauto : target.trigger = .auto) (hlimit : nextHop hops ≤ MAX_AUTO_HOPS)
      (hprepared : prepareEnqueueValues cfg env { card with columnId := target.id }
        target.id false db = .ok prepared db) (hactive : autoHopSuppressed db card = false) :
      PlanCase cfg env db hops current card outcome
        { TransitionPlan.plain comments (some target.id) .queued with
          next := some prepared, nextHops := some (nextHop hops) }

theorem planTransition_cases {hops : Nat} {run : Run} {card : Card} {outcome : RunOutcome}
    {elapsed : Option Int} {plan : TransitionPlan}
    (h : planTransition cfg env hops run card outcome elapsed db = .ok plan db') :
    ∃ current, db.column? run.columnId = some current ∧
      PlanCase cfg env db hops current card outcome plan := by
  simp only [planTransition, bind_ok, get_ok, requireColumn_ok] at h
  obtain ⟨current, _, ⟨hcurrent, rfl⟩, _, _, ⟨rfl, rfl⟩, h⟩ := h
  refine ⟨current, hcurrent, ?_⟩
  unfold decideTransition at h
  cases htarget : transitionTarget current (db.listColumns card.boardId) outcome with
  | none =>
      simp only [htarget, pure_ok] at h
      obtain ⟨rfl, -⟩ := h
      exact .stay _ htarget
  | some target =>
      simp only [htarget] at h
      by_cases hauto : target.trigger = .auto
      · cases hsuppressed : autoHopSuppressed db card with
        | true =>
            simp only [hauto, hsuppressed, decide_true, not_true_eq_false, ↓reduceIte, pure_ok] at h
            obtain ⟨rfl, -⟩ := h
            exact .suppressed _ target htarget hauto hsuppressed
        | false =>
            by_cases hlimit : nextHop hops ≤ MAX_AUTO_HOPS
            · simp only [hauto, hsuppressed, decideAutoHop, not_lt.mpr hlimit, decide_true,
                not_true_eq_false, Bool.false_eq_true, ↓reduceIte, bind_ok, pure_ok] at h
              obtain ⟨prepared, mid, hprepared, rfl, rfl⟩ := h
              cases (readOnly_prepareEnqueueValues _ _ _).ok hprepared
              exact .hop _ target prepared htarget hauto hlimit hprepared hsuppressed
            · simp only [hauto, hsuppressed, decideAutoHop, not_le.mp hlimit, decide_true,
                not_true_eq_false, Bool.false_eq_true, ↓reduceIte, pure_ok] at h
              obtain ⟨rfl, -⟩ := h
              exact .stopped _ target htarget hauto hlimit
      · simp only [hauto, decide_false, ↓reduceIte] at h
        obtain ⟨rfl, -⟩ := pure_ok.mp h
        exact .manual _ target htarget hauto

/-- What a plan may be. -/
structure PlanOk (cfg : Config) (env : Env) (db : Db) (cardId : Int) (plan : TransitionPlan) :
    Prop where
  closed : plan.next = none → isClosedStatus plan.finalStatus
  planned : ∀ prepared, plan.next = some prepared → Planned cfg env db cardId prepared.borrowed

theorem planOk_plain {cardId : Int} {comments : List String} {target : Option Int}
    {status : CardStatus}
    (h : isClosedStatus status) : PlanOk cfg env db cardId (.plain comments target status) where
  closed _ := h
  planned _ hnext := by cases hnext

theorem planTransition_planOk {hops : Nat} {run : Run} {card : Card} {outcome : RunOutcome}
    {elapsed : Option Int} {plan : TransitionPlan} (hcard : db.card? card.id = some card)
    (h : planTransition cfg env hops run card outcome elapsed db = .ok plan db') :
    PlanOk cfg env db card.id plan := by
  obtain ⟨current, -, h⟩ := planTransition_cases h
  cases h with
  | stay comments hnone =>
      refine planOk_plain ?_
      by_cases ho : outcome = .ok <;> simp [ho, isClosedStatus]
  | manual comments target htarget hmanual => exact planOk_plain (.inl rfl)
  | suppressed comments target htarget hauto hsuppressed => exact planOk_plain (.inr (.inl rfl))
  | stopped comments target htarget hauto hlimit => exact planOk_plain (.inr (.inl rfl))
  | hop comments target prepared htarget hauto hlimit hprepared =>
      refine ⟨fun hnone => absurd hnone (by simp), fun _ hnext => ?_⟩
      cases hnext
      refine ⟨{ card with columnId := target.id }, false, ⟨prepared, ?_, rfl⟩,
        .inr ⟨rfl, card, hcard, rfl, rfl⟩⟩
      show prepareEnqueueValues cfg env
          { card with columnId := target.id } prepared.columnId false db = _
      rw [(prepared_columnId hprepared).1]
      exact hprepared

theorem planOk_stayPut {cardId : Int} (outcome : RunOutcome) :
    PlanOk cfg env db cardId (stayPut outcome) := by
  refine planOk_plain ?_
  by_cases h : outcome = .ok <;> simp [h, isClosedStatus]

/-! ## Finalizing -/

/-- A finalization that committed: the run it found open, the plan it carried out, the
scheduler it left. -/
structure Finalizes (cfg : Config) (env : Env) (runId : Int) (outcome : RunOutcome)
    (summary extraComment : Option String) (kill : Bool) (run : Run) (plan : TransitionPlan)
    (d d' : DaemonState) : Prop where
  found : d.db.run? runId = some run
  isOpen : run.isOpen = true
  planOk : PlanOk cfg env d.db run.cardId plan
  committed : ∃ effects,
    finalizeRunUow env.conn (plan.finalize runId outcome summary extraComment) d.db =
    .ok effects d'.db
  settled : d' = settleFinalized { d with db := d'.db } runId run.cardId plan.nextHops kill

variable {runId : Int} {outcome : RunOutcome} {summary extraComment : Option String}
    {kill transition : Bool}

/-- Nothing changed, or a finalization committed. -/
def FinalizesOrNot (cfg : Config) (env : Env) (runId : Int) (outcome : RunOutcome)
    (summary extraComment : Option String) (kill : Bool) (d d' : DaemonState) : Prop :=
  d' = d ∨ ∃ run plan, Finalizes cfg env runId outcome summary extraComment kill run plan d d'

instance : Std.Refl (FinalizesOrNot cfg env runId outcome summary extraComment kill) :=
  ⟨fun _ => .inl rfl⟩

/-- How the plan was made: as a transition on the count of the card's auto-hops, or without one. -/
inductive MakesPlan (cfg : Config) (env : Env) (d : DaemonState) (run : Run) (card : Card)
    (outcome : RunOutcome) : Bool → TransitionPlan → Prop
  | transition (elapsed : Option Int) (plan : TransitionPlan)
      (h : planTransition cfg env ((d.sched.chainHops.lookup card.id).getD 0) run card outcome
        elapsed d.db = .ok plan d.db) : MakesPlan cfg env d run card outcome true plan
  | stayPut : MakesPlan cfg env d run card outcome false (stayPut outcome)

theorem MakesPlan.planOk {run : Run} {card : Card} {plan : TransitionPlan}
    (hcard : d.db.card? card.id = some card)
    (h : MakesPlan cfg env d run card outcome transition plan) :
    PlanOk cfg env d.db card.id plan := by
  cases h with
  | transition elapsed _ h => exact planTransition_planOk hcard h
  | stayPut => exact planOk_stayPut outcome

/-- Nothing changed, or the plan made for the open run was carried out. -/
def FinalizesAsPlanned (cfg : Config) (env : Env) (runId : Int) (outcome : RunOutcome)
    (summary extraComment : Option String) (kill transition : Bool) (d d' : DaemonState) : Prop :=
  d' = d ∨ ∃ run card plan, d.db.card? run.cardId = some card ∧
    MakesPlan cfg env d run card outcome transition plan ∧
    Finalizes cfg env runId outcome summary extraComment kill run plan d d'

instance :
    Std.Refl (FinalizesAsPlanned cfg env runId outcome summary extraComment kill transition) :=
  ⟨fun _ => .inl rfl⟩

theorem finalizeRunInner_planned (timeoutAt : Option Instant) (d : DaemonState) :
    FinalizesAsPlanned cfg env runId outcome summary extraComment kill transition d
      (finalState (finalizeRunInner cfg env runId outcome summary extraComment kill transition
        timeoutAt d)) := by
  refine (readOnly_store (readOnly_getRun _)).bind_at fun run hrun => ?_
  obtain ⟨_, hget, -⟩ := store_ok.mp hrun
  have hfind := (getRun_ok.mp hget).1
  split
  · refine (readOnly_store (readOnly_requireCard _)).bind_at fun _ _ => .inl rfl
  · next hended =>
      refine readOnly_get.bind_at fun d' hd => ?_
      obtain ⟨rfl, -⟩ := get_ok.mp hd
      split
      · exact .inl rfl
      · refine (readOnly_store (readOnly_requireCard _)).bind_at fun card hcard => ?_
        obtain ⟨_, hgetCard, -⟩ := store_ok.mp hcard
        have hfindCard := (requireCard_ok.mp hgetCard).1
        have hcardId : card.id = run.cardId := Table.key_of_find? hfindCard
        have hrest : ∀ plan, MakesPlan cfg env d run card outcome transition plan →
            FinalizesAsPlanned cfg env runId outcome summary extraComment kill transition d
              (finalState ((do
              let effects ← store (finalizeRunUow env.conn
                  (plan.finalize runId outcome summary extraComment))
              modify fun d => settleFinalized d runId card.id plan.nextHops kill
              pure (some (effects.finishedRun, effects.card)) :
                DaemonM (Option (Run × Card))) d)) := by
          intro plan hplan
          rw [run_bind]
          cases hfin : store (finalizeRunUow env.conn
              (plan.finalize runId outcome summary extraComment)) d with
          | error e t => exact .inl (atomic_store (finalizeRunUow_atomic _) _ _ _ hfin)
          | ok effects t =>
              obtain ⟨db', huow, rfl⟩ := store_ok.mp hfin
              refine .inr ⟨run, card, plan, hfindCard, hplan, hfind, ?_, ?_, ⟨effects, huow⟩, ?_⟩
              · simpa [Run.isOpen] using hended
              · exact hcardId ▸ hplan.planOk (hcardId ▸ hfindCard)
              · rw [← hcardId]
                rfl
        cases transition with
        | true =>
            refine (readOnly_store (readOnly_planTransition _ _ _ _ _)).bind_at fun plan hplan =>
              hrest plan ?_
            obtain ⟨_, hplan, -⟩ := store_ok.mp hplan
            cases (readOnly_planTransition _ _ _ _ _).ok hplan
            exact .transition _ plan hplan
        | false => exact hrest _ .stayPut

theorem finalizeRunInner_cases (timeoutAt : Option Instant) (d : DaemonState) :
    FinalizesOrNot cfg env runId outcome summary extraComment kill d
      (finalState (finalizeRunInner cfg env runId outcome summary extraComment kill transition
        timeoutAt d)) := by
  obtain h | ⟨run, card, plan, -, -, h⟩ :=
    @finalizeRunInner_planned cfg env runId outcome summary extraComment kill
    transition timeoutAt d
  · exact .inl h
  · exact .inr ⟨run, plan, h⟩

theorem finalizeRun_planned (d : DaemonState) :
    FinalizesAsPlanned cfg env runId outcome summary extraComment kill transition d
      (finalState (finalizeRun cfg env runId outcome summary extraComment kill transition d)) := by
  rw [finalizeRun, finalState_bind_readOnly fun _ => readOnly_okOr _ _]
  exact finalizeRunInner_planned none d

theorem finalizeRun_cases (d : DaemonState) :
    FinalizesOrNot cfg env runId outcome summary extraComment kill d
      (finalState (finalizeRun cfg env runId outcome summary extraComment kill transition d)) := by
  rw [finalizeRun, finalState_bind_readOnly fun _ => readOnly_okOr _ _]
  exact finalizeRunInner_cases none d

/-- A finalization is one event. -/
theorem Finalizes.via {run : Run} {plan : TransitionPlan}
    (h : Finalizes cfg env runId outcome summary extraComment kill run plan d d')
    (hE : E (.finish runId))
    (hE' : ∀ next, Planned cfg env d.db run.cardId next → E (.hop runId next)) :
    Via E d.db d'.db := by
  obtain ⟨effects, huow⟩ := h.committed
  cases hnext : plan.next with
  | none =>
      exact (via_finalize hE (by simp [TransitionPlan.finalize, hnext]) rfl
        (h.planOk.closed hnext)).ok huow
  | some prepared =>
      have hsome : (plan.finalize runId outcome summary extraComment).next =
          some prepared.borrowed := by
        simp [TransitionPlan.finalize, hnext]
      obtain ⟨run', hfind, hopen, hlife⟩ := life_hop hsome huow
      have hid : run'.id = runId := Table.key_of_find? hfind
      cases h.found.symm.trans hfind
      exact via_step (hid ▸ hE' _ (h.planOk.planned prepared hnext))
        (.hop run _ _ _ _ (Table.mem_of_find? hfind) hopen) hlife

/-! ## Signals -/

/-- The durable deadline and pause instant after a signal. -/
def signalTimeout (before : CardStatus) (dec : SignalDecision) (run : Run) (nowMs : Int) :
    Option Int × Option Int :=
  match dec.awaitingReason with
  | some _ =>
      if before ≠ .awaiting then (run.timeoutDeadlineAtMs, run.timeoutPausedAtMs <|> some nowMs)
      else (run.timeoutDeadlineAtMs, run.timeoutPausedAtMs)
  | none =>
      if before = .awaiting then (resumedDeadline run nowMs, none)
      else (run.timeoutDeadlineAtMs, run.timeoutPausedAtMs)

theorem decideSignal_some {status : CardStatus} {signal : AgentSignal} {dec : SignalDecision}
    (h : decideSignal status signal = some dec) :
    isActiveStatus status ∧ isActiveStatus dec.newStatus ∧
    (dec.newStatus = .awaiting ↔ dec.awaitingReason.isSome) := by
  unfold decideSignal at h
  split at h
  · cases h
  · next hstatus =>
      have hactive : isActiveStatus status := not_not.mp hstatus
      cases signal with
      | working =>
          by_cases hs : status = .running <;> simp [hs] at h
          subst h
          exact ⟨hactive, .inl rfl, by simp⟩
      | blocked =>
          by_cases hs : status = .blocked <;> simp [hs] at h
          subst h
          exact ⟨hactive, .inr (.inl rfl), by simp⟩
      | done =>
          cases h
          exact ⟨hactive, .inr (.inr rfl), by simp⟩
      | idleExpired =>
          by_cases hs : status = .awaiting <;> simp [hs] at h
          subst h
          exact ⟨hactive, .inr (.inr rfl), by simp⟩

/-- What the write of a signal does to the run of the card. -/
theorem life_writeSignal {card c : Card} {run : Run} {dec : SignalDecision} (hrun : run ∈ db.runs)
    (hactive : run.isActive = true) (hcard : run.cardId = card.id)
    (hdec : dec.newStatus = .awaiting ↔ dec.awaitingReason.isSome)
    (h : writeSignal env card dec db = .ok c db') :
    life db'.toTables = (life db.toTables).signal run dec.newStatus dec.awaitingReason
      (signalTimeout card.status dec run env.wallNowMs).1
        (signalTimeout card.status dec run env.wallNowMs).2 := by
  unfold writeSignal at h
  unfold signalTimeout
  rw [← hcard] at h
  cases hreason : dec.awaitingReason with
  | some reason =>
      have hstatus : dec.newStatus = .awaiting := hdec.mpr (by simp [hreason])
      simp only [hreason] at h
      rw [hstatus]
      by_cases hbefore : card.status = .awaiting
      · rw [if_neg (not_not.mpr hbefore)] at h
        simp only [hbefore, ne_eq, not_true_eq_false, ↓reduceIte]
        exact life_setCardAwaiting hrun h
      · rw [if_pos hbefore] at h
        simp only [hbefore, ne_eq, not_false_eq_true, ↓reduceIte]
        exact life_pauseRunTimeout hrun hactive h
  | none =>
      simp only [hreason] at h
      by_cases hbefore : card.status = .awaiting
      · rw [if_pos hbefore] at h
        simp only [hbefore, ↓reduceIte]
        exact life_resumeRunTimeout hrun hactive h
      · rw [if_neg hbefore] at h
        simp only [hbefore, ↓reduceIte]
        exact life_setCardStatus hrun h

/-- A paused run is one whose card is awaiting, before the signal and after it. -/
theorem signalTimeout_paused {card : Card} {run : Run} {dec : SignalDecision} (nowMs : Int)
    (hpaused : run.timeoutPausedAtMs.isSome ↔ card.status = .awaiting)
    (hdec : dec.newStatus = .awaiting ↔ dec.awaitingReason.isSome) :
    dec.newStatus = .awaiting ↔ (signalTimeout card.status dec run nowMs).2.isSome := by
  rw [hdec]
  unfold signalTimeout
  cases dec.awaitingReason with
  | some reason =>
      by_cases hbefore : card.status = .awaiting
      · simp [hbefore, hpaused]
      · simp [hbefore]
  | none =>
      by_cases hbefore : card.status = .awaiting
      · simp [hbefore]
      · simpa [hbefore] using hpaused

/-- A signal that was applied: the watched entry, the open run and the card it was for, and
the decision. -/
structure Signals (env : Env) (runId cardId : Int) (signal : AgentSignal)
    (active : ActiveRun) (run : Run)
    (card : Card) (dec : SignalDecision) (d d' : DaemonState) : Prop where
  watched : d.sched.active.lookup runId = some active
  sameCard : active.cardId = cardId
  foundRun : d.db.run? runId = some run
  foundCard : d.db.card? cardId = some card
  runCard : run.cardId = cardId
  isActive : run.isActive = true
  decided : decideSignal card.status signal = some dec
  written : ∃ c, writeSignal env card dec d.db = .ok c d'.db
  settled : d' = { d with
    db := d'.db
    sched.active := d.sched.active.insert runId
      (pauseBookkeeping env card.status dec.newStatus active) }

theorem applySignalGuarded_cases (runId cardId : Int) (signal : AgentSignal) (guard : SignalGuard)
    (d : DaemonState) : applySignalGuarded env runId cardId signal guard d = d ∨
      ∃ active run card dec, Signals env runId cardId signal active run card dec d
        (applySignalGuarded env runId cardId signal guard d) := by
  unfold applySignalGuarded
  cases hactive : d.sched.active.lookup runId with
  | none => exact .inl rfl
  | some active =>
      cases hrun : d.db.run? runId with
      | none => exact .inl rfl
      | some run =>
          cases hcard : d.db.card? cardId with
          | none => exact .inl rfl
          | some card =>
              dsimp only
              split
              · exact .inl rfl
              · next hentry =>
                  split
                  · exact .inl rfl
                  · next hrow =>
                      push Not at hentry hrow
                      cases hdec : decideSignal card.status signal with
                      | none => exact .inl rfl
                      | some dec =>
                          cases hwrite : writeSignal env card dec d.db with
                          | error e db =>
                              simp only [hwrite]
                              exact .inl trivial
                          | ok c db =>
                              simp only [hwrite]
                              refine .inr ⟨active, run, card, dec, ?_⟩
                              exact
                                { watched := hactive
                                  sameCard := hentry.1
                                  foundRun := hrun
                                  foundCard := hcard
                                  runCard := hrow.1
                                  isActive := by
                                    simpa [Run.isActive, Option.isSome_iff_ne_none] using hrow.2
                                  decided := hdec
                                  written := ⟨c, hwrite⟩
                                  settled := rfl }

/-- The card of an open run, as the store has it. -/
theorem fits_card (hinv : Inv (life db.toTables)) {run : Run} {card : Card} (hrun : run ∈ db.runs)
    (hopen : run.isOpen = true) (hcard : db.card? run.cardId = some card) :
    Fits run card.status := by
  obtain ⟨c, hc, hid, -, hfit⟩ := hinv.card_of_open hrun hopen
  obtain ⟨c₀, hc₀, rfl⟩ := mem_cardStates.mp hc
  have heq : c₀ = card :=
    Table.eq_of_key_eq hc₀ (Table.mem_of_find? hcard) (hid.trans (Table.key_of_find? hcard).symm)
  exact heq ▸ hfit

/-- A signal is one event. -/
theorem Signals.via {runId cardId : Int} {signal : AgentSignal} {active : ActiveRun} {run : Run}
    {card : Card}
    {dec : SignalDecision} (h : Signals env runId cardId signal active run card dec d d')
    (hinv : Inv (life d.db.toTables)) (hE : E (.signal runId)) : Via E d.db d'.db := by
  obtain ⟨c, hwrite⟩ := h.written
  obtain ⟨-, hstatus, hreason⟩ := decideSignal_some h.decided
  have hrun : run ∈ d.db.runs := Table.mem_of_find? h.foundRun
  have hid : run.id = runId := Table.key_of_find? h.foundRun
  have hcardId : card.id = cardId := Table.key_of_find? h.foundCard
  have hopen : run.isOpen = true := by
    have hactive := h.isActive
    simp only [Run.isActive, Bool.and_eq_true] at hactive
    exact hactive.2
  have hfit : Fits run card.status := fits_card hinv hrun hopen (h.runCard ▸ h.foundCard)
  refine via_step (hid ▸ hE) ?_
    (life_writeSignal hrun h.isActive (h.runCard.trans hcardId.symm) hreason hwrite)
  exact .signal run _ _ _ _ hrun h.isActive hstatus hreason
    (signalTimeout_paused _ hfit.paused hreason)

end HerdrBoard.Lifecycle
