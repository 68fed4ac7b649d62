import HerdrBoard.LocalState.ShowSteps

/-!
# Show requests over time

Asks, answers and sweeps in any order on a clock that never goes back.
-/

open Lib HerdrBoard.Core Relation

namespace HerdrBoard.LocalState

/-! ## Operations -/

inductive ShowOp where
  | request (p : LinearShowRequestParams) (knownElsewhere : Bool) (ttlSecs : Int)
  | accept (id : Int)
  | dismiss (id : Int)
  | withdraw (p : LinearShowWithdrawParams)
  | sweep

/-- An operation with the clock it reads. -/
structure ShowEvent where
  now : Int
  out : Outside
  op : ShowOp

def ShowEvent.run (e : ShowEvent) : LsM Unit :=
  match e.op with
  | .request p knownElsewhere ttlSecs => do
      let _ ← linearShowRequest e.out p knownElsewhere e.now ttlSecs
  | .accept id => do
      let _ ← linearShowAccept e.out id e.now
  | .dismiss id => do
      let _ ← linearShowDismiss e.out id e.now
  | .withdraw p => do
      let _ ← linearShowWithdraw e.out p e.now
  | .sweep => do
      let _ ← ofStore (expireOverdue e.out.sqlNow e.now)

/-- The store after the events; what is refused leaves what it left. -/
def showRun (events : List ShowEvent) (db : LinearDb) : LinearDb :=
  events.foldl (fun db e => finalState (e.run db)) db

/-- Non-decreasing times. -/
def OnClock (events : List ShowEvent) : Prop := events.Pairwise fun e e' => e.now ≤ e'.now

instance (events : List ShowEvent) : Decidable (OnClock events) :=
  inferInstanceAs (Decidable (List.Pairwise _ _))

theorem Shows.discard {α : Type} {now : Int} {x : LsM α} (h : Respects (Shows now) x) :
    Respects (Shows now) (do let _ ← x) :=
  h.bind fun _ => respects_pure _

/-- One event is a chain of steps at its time. -/
theorem ShowEvent.shows (e : ShowEvent) : Respects (Shows e.now) e.run := by
  obtain ⟨now, out, op⟩ := e
  cases op with
  | request p knownElsewhere ttlSecs => exact Shows.discard (linearShowRequest_shows out)
  | accept id => exact Shows.discard (closePending_shows out (by simp))
  | dismiss id => exact Shows.discard (closePending_shows out (by simp))
  | withdraw p => exact Shows.discard (linearShowWithdraw_shows out p)
  | sweep =>
      apply Shows.discard
      intro db
      rw [ofStore_finalState]
      exact expireOverdue_shows db

/-! ## What a step keeps -/

variable {now : Int} {s t : Table ShowRequest} {r : ShowRequest}

/-- At most one request of an ask is pending. -/
def OnePending (now : Int) (s : Table ShowRequest) : Prop :=
  ∀ a ∈ s, ∀ b ∈ s, a.isPending now = true → b.isPending now = true → a.ask = b.ask → a = b

/-- Outcome and answer time are both set or both missing. -/
def AnsweredWhole (s : Table ShowRequest) : Prop :=
  ∀ r ∈ s, r.outcome.isSome = r.acknowledgedAt.isSome

theorem OnePending.mono {later : Int} (hle : now ≤ later) (h : OnePending now s) :
    OnePending later s :=
  fun a ha b hb hpa hpb => h a ha b hb (isPending_anti hle hpa) (isPending_anti hle hpb)

theorem OnePending.step (h : OnePending now s) (hstep : ShowStep now s t) : OnePending now t := by
  intro a ha b hb hpa hpb heq
  cases hstep with
  | row r r' hr hrow ht =>
      rcases (ht a).mp ha with rfl | ⟨ha, hane⟩ <;> rcases (ht b).mp hb with rfl | ⟨hb, hbne⟩
      · rfl
      · have := h r hr b hb (hrow.pending hpa) hpb (hrow.ask.symm.trans heq)
        exact absurd (congrArg ShowRequest.id this).symm hbne
      · have := h r hr a ha (hrow.pending hpb) hpa (hrow.ask.symm.trans heq.symm)
        exact absurd (congrArg ShowRequest.id this).symm hane
      · exact h a ha b hb hpa hpb heq
  | added r hnew hopen hack hnone ht =>
      rcases (ht a).mp ha with ha | rfl <;> rcases (ht b).mp hb with hb | rfl
      · exact h a ha b hb hpa hpb heq
      · exact absurd heq (hnone a ha hpa)
      · exact absurd heq.symm (hnone b hb hpb)
      · rfl

theorem RowStep.whole {r' : ShowRequest} (h : RowStep now r r')
    (hr : r.outcome.isSome = r.acknowledgedAt.isSome) :
    r'.outcome.isSome = r'.acknowledgedAt.isSome := by
  cases h with
  | same => exact hr
  | refreshed reason requestedBy expiresAt h => exact hr
  | closed outcome at_ h hne => rfl
  | expired at_ hopen hdue => rfl

theorem AnsweredWhole.step (h : AnsweredWhole s) (hstep : ShowStep now s t) : AnsweredWhole t := by
  intro a ha
  cases hstep with
  | row r r' hr hrow ht =>
      rcases (ht a).mp ha with rfl | ⟨ha, -⟩
      · exact hrow.whole (h r hr)
      · exact h a ha
  | added r hnew hopen hack hnone ht =>
      rcases (ht a).mp ha with ha | rfl
      · exact h a ha
      · rw [hack.1, hack.2]
        rfl

/-- An answered request stays as it is. -/
theorem answered_step (hr : r ∈ s) (hanswered : r.isUnanswered = false) (hstep : ShowStep now s t) :
    r ∈ t := by
  obtain ⟨r', hr', hrow⟩ := hstep.step_of_mem hr
  rw [← hrow.answered hanswered]
  exact hr'

/-- What becomes of an overdue request: it stays, or it is closed as expired. -/
def LeftOrExpired (r : ShowRequest) (s : Table ShowRequest) : Prop :=
  r ∈ s ∨ (r.isUnanswered = true ∧ ∃ at_, r.closed .expired at_ ∈ s)

theorem LeftOrExpired.step (hdue : r.isOverdue now = true) (h : LeftOrExpired r s)
    (hstep : ShowStep now s t) :
    LeftOrExpired r t := by
  rcases h with hr | ⟨hopen, at_, hr⟩
  · obtain ⟨r', hr', hrow⟩ := hstep.step_of_mem hr
    rcases hrow.overdue hdue with rfl | ⟨hopen, at_, rfl⟩
    · exact .inl hr'
    · exact .inr ⟨hopen, at_, hr'⟩
  · exact .inr ⟨hopen, at_, answered_step hr rfl hstep⟩

/-! ## Runs -/

variable {events : List ShowEvent} {db : LinearDb}

/-- What every step of an event keeps, the event keeps. -/
theorem ShowEvent.keeps {I : Table ShowRequest → Prop} (e : ShowEvent)
    (hstep : ∀ s t, I s → ShowStep e.now s t → I t) (h : I db.showRequests) :
    I (finalState (e.run db)).showRequests := by
  have hchain : ReflTransGen (ShowStep e.now) db.showRequests
      (finalState (e.run db)).showRequests := e.shows db
  generalize (finalState (e.run db)).showRequests = t at hchain ⊢
  induction hchain with
  | refl => exact h
  | tail _ hlast ih => exact hstep _ _ ih hlast

theorem showRun_keeps {I : Table ShowRequest → Prop}
    (hstep : ∀ e ∈ events, ∀ s t, I s → ShowStep e.now s t → I t)
    (h : I db.showRequests) : I (showRun events db).showRequests := by
  induction events generalizing db with
  | nil => exact h
  | cons e events ih =>
      apply ih (fun e' he' => hstep e' (List.mem_cons_of_mem _ he'))
      exact e.keeps (hstep e List.mem_cons_self) h

/-- The clock carries the uniqueness along: what is pending later was pending at the time of
the last event. -/
theorem onePending_run (start : Int) {later : Int} (hclock : OnClock events)
    (hstart : ∀ e ∈ events, start ≤ e.now)
    (hlater : ∀ e ∈ events, e.now ≤ later) (hle : start ≤ later)
    (h : OnePending start db.showRequests) : OnePending later (showRun events db).showRequests := by
  induction events generalizing db start with
  | nil => exact h.mono hle
  | cons e events ih =>
      obtain ⟨hnext, hclock⟩ := List.pairwise_cons.mp hclock
      have hnow : OnePending e.now db.showRequests := h.mono (hstart e List.mem_cons_self)
      apply ih e.now hclock hnext (fun e' he' => hlater e' (List.mem_cons_of_mem _ he'))
        (hlater e List.mem_cons_self)
      exact e.keeps (fun s t hs hstep => hs.step hstep) hnow

theorem onePending_fresh : OnePending now LinearDb.fresh.showRequests := by
  intro a ha
  cases ha

/-- At any time at most one request of an ask is pending; a request is answered once, whole, and for
good; an overdue one only expires; and a re-ask keeps the pending request's id and place. -/
theorem show_requests_close_once (before after : List ShowEvent)
    (hclock : OnClock (before ++ after)) (now : Int)
    (hpast : ∀ e ∈ before, e.now ≤ now) (hnext : ∀ e ∈ after, now ≤ e.now) :
    OnePending now (showRun before .fresh).showRequests ∧
    (∀ r ∈ (showRun before .fresh).showRequests, r.outcome.isSome = r.acknowledgedAt.isSome ∧
      (r.outcome.isSome = true → r ∈ (showRun after (showRun before .fresh)).showRequests)) ∧
    (∀ r ∈ (showRun before .fresh).showRequests, r.isOverdue now = true →
      r ∈ (showRun after (showRun before .fresh)).showRequests ∨
      (r.outcome = none ∧ ∃ at_,
        r.closed .expired at_ ∈ (showRun after (showRun before .fresh)).showRequests)) ∧
    (∀ r ∈ (showRun before .fresh).showRequests, r.isPending now = true →
      ∀ out p known ttlSecs change t, (p.session, p.space, p.issue, p.asker) = r.ask →
        linearShowRequest out p known now ttlSecs (showRun before .fresh) = .ok change t →
        change.before = some r ∧ ∃ r', change.after = some r' ∧ r'.id = r.id ∧
          r'.createdAt = r.createdAt ∧
          ∀ x, x ∈ t.showRequests ↔
            x = r' ∨ (x ∈ (showRun before .fresh).showRequests ∧ x.id ≠ r.id)) := by
  have hone : OnePending now (showRun before .fresh).showRequests := by
    cases before with
    | nil => exact onePending_fresh
    | cons e before =>
        have hbefore := (List.pairwise_append.mp hclock).1
        apply onePending_run e.now hbefore _ hpast (hpast e List.mem_cons_self) onePending_fresh
        intro e' he'
        rcases List.mem_cons.mp he' with rfl | he'
        · exact le_refl _
        · exact (List.pairwise_cons.mp hbefore).1 e' he'
  have hwhole : AnsweredWhole (showRun before .fresh).showRequests :=
    showRun_keeps (fun e _ s t hs hstep => hs.step hstep) (fun r hr => by cases hr)
  refine ⟨hone, ?_, ?_, ?_⟩
  · intro r hr
    refine ⟨hwhole r hr, fun houtcome => ?_⟩
    apply showRun_keeps (I := fun s => r ∈ s) _ hr
    intro e _ s t hs hstep
    exact answered_step hs
      (by simp [ShowRequest.isUnanswered, Option.isSome_iff_ne_none.mp houtcome]) hstep
  · intro r hr hdue
    have hleft : LeftOrExpired r (showRun after (showRun before .fresh)).showRequests := by
      apply showRun_keeps _ (Or.inl hr)
      intro e he s t hs hstep
      exact hs.step (isOverdue_mono (hnext e he) hdue) hstep
    rcases hleft with hleft | ⟨hopen, at_, hexpired⟩
    · exact .inl hleft
    · refine .inr ⟨?_, at_, hexpired⟩
      simp only [ShowRequest.isUnanswered, Bool.and_eq_true, Option.isNone_iff_eq_none] at hopen
      exact hopen.1
  · intro r hr hpending out p known ttlSecs change t heq hrun
    have htx := showRequestTx_of_ok out hrun
    cases hask : (showRun before .fresh).pendingAsk p.session p.space p.issue p.asker now with
    | none => exact absurd heq.symm (pendingAsk_eq_none hask hr hpending)
    | some found =>
        obtain ⟨hfound, hfoundPending, hfoundAsk⟩ := pendingAsk_eq_some hask
        cases hone found hfound r hr hfoundPending hpending (hfoundAsk.trans heq)
        obtain ⟨reason, requestedBy, expiresAt, rfl, rfl⟩ := showRequestTx_reask out hask htx
        exact ⟨rfl, _, rfl, rfl, rfl,
          mem_rewriteOpen (refreshed_key reason requestedBy expiresAt) hr
          (isPending_iff.mp hpending).1⟩

/-! ## A history -/

/-- A clock that writes one expiry, and no git worktrees or JSON. -/
def oneMinute : Outside where
  sqlNow := "1970-01-01 00:00:00"
  datetime n := if n = 60 then some "1970-01-01 00:01:00" else none
  resolveWorktree _ := .error (.missing "no worktree")
  parseJson _ := .error "no JSON"
  configOfValue _ := .error "no config"
  mappingOfValue _ := .error "no mapping"

def askWeb1 : ShowEvent where
  now := 0
  out := oneMinute
  op := .request { space := "web", issue := "WEB-1", owner := { herdrPaneId := some "p1" } } true 60

def sweepLate : ShowEvent := { now := 90, out := oneMinute, op := .sweep }

/-- A request asked for a minute expires in the sweep that comes after. -/
theorem show_requests_close_once_sweep :
    (showRun [askWeb1] .fresh).showRequests.rows.map (fun r => (r.id, r.isOverdue 60)) =
      [(1, true)] ∧
    (showRun [sweepLate] (showRun [askWeb1] .fresh)).showRequests.rows.map ShowRequest.outcome =
    [some .expired] ∧ ∀ r ∈ (showRun [askWeb1] .fresh).showRequests, r.isOverdue 60 = true →
      r ∈ (showRun [sweepLate] (showRun [askWeb1] .fresh)).showRequests ∨
      (r.outcome = none ∧ ∃ at_,
        r.closed .expired at_ ∈ (showRun [sweepLate] (showRun [askWeb1] .fresh)).showRequests) :=
  ⟨by decide +kernel, by decide +kernel,
    (show_requests_close_once [askWeb1] [sweepLate] (by decide) 60 (by decide) (by decide)).2.2.1⟩

end HerdrBoard.LocalState
