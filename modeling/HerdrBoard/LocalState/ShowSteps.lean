import HerdrBoard.LocalState.Writes
import Mathlib.Logic.Relation

/-!
# What can happen to show requests

Every show operation at one time is a chain of four kinds of step on the table of requests.
-/

open Lib HerdrBoard.Core Relation

namespace HerdrBoard.LocalState

variable {now : Int} {s t : Table ShowRequest} {r r' : ShowRequest}

/-! ## Rewrites -/

/-- What identifies the ask: the board it is for, the issue, and who asks. -/
def ShowRequest.ask (r : ShowRequest) : String × String × String × LinearOwner :=
  (r.herdrSession, r.space, r.issue, r.owner)

def ShowRequest.refreshed (r : ShowRequest) (reason requestedBy expiresAt : Option String) :
    ShowRequest :=
  { r with reason, requestedBy, expiresAt }

def ShowRequest.closed (r : ShowRequest) (outcome : ShowOutcome) (at_ : String) : ShowRequest :=
  { r with outcome := some outcome, acknowledgedAt := some at_ }

@[simp] theorem refreshed_id {reason requestedBy expiresAt : Option String} :
    (r.refreshed reason requestedBy expiresAt).id = r.id := rfl

@[simp] theorem closed_id {outcome : ShowOutcome} {at_ : String} :
    (r.closed outcome at_).id = r.id := rfl

@[simp] theorem refreshed_ask {reason requestedBy expiresAt : Option String} :
    (r.refreshed reason requestedBy expiresAt).ask = r.ask := rfl

@[simp] theorem closed_ask {outcome : ShowOutcome} {at_ : String} :
    (r.closed outcome at_).ask = r.ask := rfl

@[simp] theorem closed_isUnanswered {outcome : ShowOutcome} {at_ : String} :
    (r.closed outcome at_).isUnanswered = false := rfl

theorem isPending_iff :
    r.isPending now = true ↔ r.isUnanswered = true ∧ r.isOverdue now = false := by
  simp [ShowRequest.isPending]

/-- Once overdue, always overdue. -/
theorem isOverdue_mono {later : Int} (hle : now ≤ later) (h : r.isOverdue now = true) :
    r.isOverdue later = true := by
  unfold ShowRequest.isOverdue at h ⊢
  cases hexpires : r.expiresAt.bind parseTimestamp with
  | none => simp [hexpires] at h
  | some expires =>
      simp only [hexpires, Option.any_some, decide_eq_true_eq] at h ⊢
      omega

/-- What is pending later is pending now. -/
theorem isPending_anti {later : Int} (hle : now ≤ later) (h : r.isPending later = true) :
    r.isPending now = true := by
  obtain ⟨hopen, hdue⟩ := isPending_iff.mp h
  apply isPending_iff.mpr
  refine ⟨hopen, ?_⟩
  cases hnow : r.isOverdue now with
  | false => rfl
  | true =>
      rw [isOverdue_mono hle hnow] at hdue
      cases hdue

/-! ## Steps -/

/-- What can happen to one request. -/
inductive RowStep (now : Int) (r : ShowRequest) : ShowRequest → Prop
  | same : RowStep now r r
  | refreshed (reason requestedBy expiresAt : Option String) (h : r.isPending now = true) :
      RowStep now r (r.refreshed reason requestedBy expiresAt)
  | closed (outcome : ShowOutcome) (at_ : String) (h : r.isPending now = true)
      (hne : outcome ≠ .expired) : RowStep now r (r.closed outcome at_)
  | expired (at_ : String) (hopen : r.isUnanswered = true) (hdue : r.isOverdue now = true) :
      RowStep now r (r.closed .expired at_)

theorem RowStep.ask (h : RowStep now r r') : r'.ask = r.ask := by
  cases h <;> rfl

/-- What is pending afterwards was pending before. -/
theorem RowStep.pending (h : RowStep now r r') (hpending : r'.isPending now = true) :
    r.isPending now = true := by
  cases h with
  | same => exact hpending
  | refreshed reason requestedBy expiresAt h => exact h
  | closed outcome at_ h hne => exact h
  | expired at_ hopen hdue => cases hpending

/-- An answered request is left alone. -/
theorem RowStep.answered (h : RowStep now r r') (hanswered : r.isUnanswered = false) : r' = r := by
  have hnot (hopen : r.isUnanswered = true) : False := by rw [hanswered] at hopen; cases hopen
  cases h with
  | same => rfl
  | refreshed reason requestedBy expiresAt h => exact (hnot (isPending_iff.mp h).1).elim
  | closed outcome at_ h hne => exact (hnot (isPending_iff.mp h).1).elim
  | expired at_ hopen hdue => exact (hnot hopen).elim

/-- An overdue request can only become expired. -/
theorem RowStep.overdue (h : RowStep now r r') (hdue : r.isOverdue now = true) :
    r' = r ∨ (r.isUnanswered = true ∧ ∃ at_, r' = r.closed .expired at_) := by
  have hnot (hpending : r.isPending now = true) : False := by
    have := (isPending_iff.mp hpending).2
    rw [hdue] at this
    cases this
  cases h with
  | same => exact .inl rfl
  | refreshed reason requestedBy expiresAt h => exact (hnot h).elim
  | closed outcome at_ h hne => exact (hnot h).elim
  | expired at_ hopen hdue => exact .inr ⟨hopen, at_, rfl⟩

/-- What can happen to the table: one request steps, or a request is added that nothing
pending asks for. -/
inductive ShowStep (now : Int) (s : Table ShowRequest) : Table ShowRequest → Prop
  | row {t : Table ShowRequest} (r r' : ShowRequest) (hr : r ∈ s) (hstep : RowStep now r r')
      (ht : ∀ x, x ∈ t ↔ x = r' ∨ (x ∈ s ∧ x.id ≠ r.id)) : ShowStep now s t
  | added {t : Table ShowRequest} (r : ShowRequest) (hnew : ∀ x ∈ s, x.id ≠ r.id)
      (hopen : r.isUnanswered = true) (hack : r.outcome = none ∧ r.acknowledgedAt = none)
      (hnone : ∀ x ∈ s, x.isPending now = true → x.ask ≠ r.ask)
      (ht : ∀ x, x ∈ t ↔ x ∈ s ∨ x = r) : ShowStep now s t

theorem ShowStep.step_of_mem (h : ShowStep now s t) (hr : r ∈ s) : ∃ r' ∈ t, RowStep now r r' := by
  cases h with
  | row r₀ r₁ hr₀ hstep ht =>
      by_cases heq : r.id = r₀.id
      · cases Table.eq_of_key_eq hr hr₀ heq
        exact ⟨r₁, (ht r₁).mpr (.inl rfl), hstep⟩
      · exact ⟨r, (ht r).mpr (.inr ⟨hr, heq⟩), .same⟩
  | added r₀ hnew hopen hack hnone ht => exact ⟨r, (ht r).mpr (.inl hr), .same⟩

/-! ## Statements -/

/-- The guarded update of one request. -/
def rewriteOpen (s : Table ShowRequest) (id : Int) (f : ShowRequest → ShowRequest)
    (hf : ∀ r, (f r).id = r.id) :
    Table ShowRequest := s.update (fun a => a.id == id && a.isUnanswered) f hf

section

variable {f : ShowRequest → ShowRequest} (hf : ∀ r, (f r).id = r.id)

theorem mem_rewriteOpen (hr : r ∈ s) (hopen : r.isUnanswered = true) (x : ShowRequest) :
    x ∈ rewriteOpen s r.id f hf ↔ x = f r ∨ (x ∈ s ∧ x.id ≠ r.id) := by
  rw [rewriteOpen, Table.mem_update]
  constructor
  · rintro ⟨a, ha, rfl⟩
    by_cases heq : a.id = r.id
    · cases Table.eq_of_key_eq ha hr heq
      simp [hopen]
    · simp [heq, ha]
  · rintro (rfl | ⟨hx, hne⟩)
    · exact ⟨r, hr, by simp [hopen]⟩
    · exact ⟨x, hx, by simp [hne]⟩

theorem find?_rewriteOpen (hr : r ∈ s) (hopen : r.isUnanswered = true) :
    (rewriteOpen s r.id f hf).find? r.id = some (f r) :=
  Table.find?_eq_some.mpr ⟨(mem_rewriteOpen hf hr hopen _).mpr (.inl rfl), hf r⟩

variable {db u : LinearDb}

def LinearDb.withShow (db : LinearDb) (t : Table ShowRequest) : LinearDb :=
  { db with showRequests := t }

@[simp] theorem withShow_showRequests : (db.withShow t).showRequests = t := rfl

theorem updateUnanswered_run (hr : r ∈ db.showRequests) (hopen : r.isUnanswered = true) :
    updateUnanswered r.id f hf db =
      .ok true (db.withShow (rewriteOpen db.showRequests r.id f hf)) := by
  have hfind : db.showRequests.find? r.id = some r := Table.find?_key hr
  have hany : ((db.showRequests.find? r.id).any ShowRequest.isUnanswered) = true := by
    rw [hfind]; exact hopen
  exact congrArg (fun b => EStateM.Result.ok b _) hany

/-- The requests of a chain of steps at one time. -/
def Shows (now : Int) (db t : LinearDb) : Prop :=
  ReflTransGen (ShowStep now) db.showRequests t.showRequests

instance : Std.Refl (Shows now) := ⟨fun _ => .refl⟩

instance : IsTrans LinearDb (Shows now) := ⟨fun _ _ _ h h' => h.trans h'⟩

/-- One request steps, the others are left. -/
theorem shows_rewriteOpen (hr : r ∈ db.showRequests) (hopen : r.isUnanswered = true)
    (hstep : RowStep now r (f r)) :
    Shows now db (db.withShow (rewriteOpen db.showRequests r.id f hf)) :=
  ReflTransGen.single (.row r (f r) hr hstep (mem_rewriteOpen hf hr hopen))

end

/-! ## Closing -/

variable (out : Outside) {db : LinearDb}

theorem closed_key (outcome : ShowOutcome) (at_ : String) :
    ∀ a : ShowRequest, (a.closed outcome at_).id = a.id := fun _ => rfl

/-- The table after a request is closed. -/
abbrev closeOpen (s : Table ShowRequest) (id : Int) (outcome : ShowOutcome) (at_ : String) :
    Table ShowRequest :=
  rewriteOpen s id (fun a => a.closed outcome at_) (closed_key outcome at_)

theorem closeShowRequest_run (outcome : ShowOutcome) (at_ : String) (hr : r ∈ db.showRequests)
    (hopen : r.isUnanswered = true) :
    closeShowRequest at_ r.id outcome db =
      .ok true (db.withShow (closeOpen db.showRequests r.id outcome at_)) :=
  updateUnanswered_run (closed_key outcome at_) hr hopen

theorem closePending_run {id : Int} {outcome : ShowOutcome} (hr : db.showRequests.find? id = some r)
    (hpending : r.isPending now = true) :
    closePending out id outcome now db =
      .ok { before := some r, after := some (r.closed outcome out.sqlNow) }
      (db.withShow (closeOpen db.showRequests id outcome out.sqlNow)) := by
  have hmem : r ∈ db.showRequests := Table.mem_of_find? hr
  have hid : r.id = id := Table.key_of_find? hr
  subst hid
  have hopen := (isPending_iff.mp hpending).1
  have hclose : ofStore (closeShowRequest out.sqlNow r.id outcome) db =
      .ok true (db.withShow (closeOpen db.showRequests r.id outcome out.sqlNow)) := by
    rw [ofStore, closeShowRequest_run outcome out.sqlNow hmem hopen]
  have hafter : (closeOpen db.showRequests r.id outcome out.sqlNow).find? r.id =
      some (r.closed outcome out.sqlNow) :=
    find?_rewriteOpen (closed_key outcome out.sqlNow) hmem hopen
  apply bind_ok.mpr
  refine ⟨db, db, rfl, bind_ok.mpr
    ⟨r, db, okOr_run hr _, bind_ok.mpr ⟨(), db, refuse_run (by simp [hpending]) _, ?_⟩⟩⟩
  apply bind_ok.mpr
  refine ⟨true, _, hclose, bind_ok.mpr ⟨(), _, refuse_run (by simp) _, ?_⟩⟩
  exact congrArg (fun after => EStateM.Result.ok (LinearChange.mk (some r) after) _) hafter

/-- A request that is not pending is not closed. -/
theorem closePending_refuses {id : Int} {outcome : ShowOutcome}
    (h : ∀ r, db.showRequests.find? id = some r → r.isPending now = false) :
    ∃ e, closePending out id outcome now db = .error e db := by
  unfold closePending
  rw [get_bind_run]
  cases hr : db.showRequests.find? id with
  | none => exact ⟨_, rfl⟩
  | some r =>
      rw [bind_run (okOr_run rfl _)]
      exact ⟨_, refuse_bind_error (h r hr)⟩

theorem closePending_shows {id : Int} {outcome : ShowOutcome} (hne : outcome ≠ .expired) :
    Respects (Shows now) (closePending out id outcome now) := by
  intro db
  by_cases h : ∀ r, db.showRequests.find? id = some r → r.isPending now = false
  · obtain ⟨e, he⟩ := closePending_refuses out h
    rw [he]
    exact refl_of _ _
  · obtain ⟨r, hr, hpending⟩ : ∃ r, db.showRequests.find? id = some r ∧ r.isPending now = true := by
      simpa using h
    rw [closePending_run out hr hpending]
    have hid : r.id = id := Table.key_of_find? hr
    subst hid
    exact shows_rewriteOpen _ (Table.mem_of_find? hr)
      (isPending_iff.mp hpending).1 (.closed outcome out.sqlNow hpending hne)

theorem linearShowWithdraw_shows (p : LinearShowWithdrawParams) :
    Respects (Shows now) (linearShowWithdraw out p now) := by
  unfold linearShowWithdraw
  refine (readOnly_fromExcept _).respects.bind fun _ => ?_
  refine (readOnly_fromExcept _).respects.bind fun _ => ?_
  refine (readOnly_fromExcept _).respects.bind fun owner => ?_
  refine readOnly_get.respects.bind fun db => ?_
  refine (readOnly_okOr _ _).respects.bind fun request => ?_
  exact closePending_shows out (by simp)

/-! ## The sweep -/

/-- Closing the overdue requests of a list of open ones, each once. -/
theorem expireEach_run (db : LinearDb) (at_ : String) {requests : List ShowRequest}
    (hdistinct : requests.Pairwise fun a b => a.id ≠ b.id)
    (hopen : ∀ r ∈ requests, r ∈ db.showRequests ∧ r.isUnanswered = true) :
    ∃ spaces u, expireEach at_ now requests db = .ok spaces u ∧ Shows now db u := by
  induction requests generalizing db with
  | nil => exact ⟨[], db, rfl, refl_of _ _⟩
  | cons r requests ih =>
      obtain ⟨hnew, hrest⟩ := List.pairwise_cons.mp hdistinct
      obtain ⟨hr, hropen⟩ := hopen r List.mem_cons_self
      have htail : ∀ a ∈ requests, a ∈ db.showRequests ∧ a.isUnanswered = true :=
        fun a ha => hopen a (List.mem_cons_of_mem _ ha)
      unfold expireEach
      by_cases hdue : r.isOverdue now = true
      · have hclose := closeShowRequest_run .expired at_ hr hropen
        have hmem (a : ShowRequest) (ha : a ∈ requests) :
            a ∈ (closeOpen db.showRequests r.id .expired at_) ∧ a.isUnanswered = true := by
          obtain ⟨hin, haopen⟩ := htail a ha
          exact ⟨(mem_rewriteOpen _ hr hropen a).mpr (.inr ⟨hin, (hnew a ha).symm⟩), haopen⟩
        obtain ⟨spaces, u, hu, hsteps⟩ :=
          ih (db.withShow (closeOpen db.showRequests r.id .expired at_)) hrest hmem
        refine ⟨r.space :: spaces, u, ?_, ?_⟩
        · rw [if_pos hdue]
          exact bind_ok.mpr ⟨true, _, hclose, bind_ok.mpr ⟨spaces, u, hu, rfl⟩⟩
        · exact (shows_rewriteOpen _ hr hropen (.expired at_ hropen hdue)).trans hsteps
      · obtain ⟨spaces, u, hu, hsteps⟩ := ih db hrest htail
        refine ⟨spaces, u, ?_, hsteps⟩
        rw [if_neg hdue]
        exact bind_ok.mpr ⟨false, db, rfl, bind_ok.mpr ⟨spaces, u, hu, rfl⟩⟩

theorem expireOverdue_shows {at_ : String} : Respects (Shows now) (expireOverdue at_ now) := by
  intro db
  have hdistinct : (db.openShowRequests none).Pairwise fun a b => a.id ≠ b.id :=
    (db.showRequests.ascending.filter _).imp fun h => h.ne
  obtain ⟨spaces, u, hu, hsteps⟩ := expireEach_run db at_ hdistinct (by
    intro r hr
    simpa [LinearDb.openShowRequests] using hr)
  have hrun : expireOverdue at_ now db = .ok (spaces.dedup.insertionSort (· ≤ ·)) u := by
    apply transaction_ok.mpr
    exact bind_ok.mpr ⟨db, db, rfl, bind_ok.mpr ⟨spaces, u, hu, rfl⟩⟩
  rw [hrun]
  exact hsteps

/-! ## Asking -/

theorem mem_pendingShowRequests {session space : String} :
    r ∈ db.pendingShowRequests session space now ↔
      r ∈ db.showRequests ∧ r.herdrSession = session ∧ r.space = space ∧
      r.isPending now = true := by
  simp only [LinearDb.pendingShowRequests, LinearDb.openShowRequests, List.mem_filter,
    Table.mem_select, Option.all_some, Bool.and_eq_true, beq_iff_eq, isPending_iff]
  tauto

/-- The pending request of an ask, as an operation looks it up. -/
def LinearDb.pendingAsk (db : LinearDb) (session space issue : String) (owner : LinearOwner)
    (now : Int) : Option ShowRequest :=
  (db.pendingShowRequests session space now).find? fun r => r.issue == issue && r.owner == owner

theorem pendingAsk_eq_some {session space issue : String} {owner : LinearOwner}
    (h : db.pendingAsk session space issue owner now = some r) :
    r ∈ db.showRequests ∧ r.isPending now = true ∧ r.ask = (session, space, issue, owner) := by
  obtain ⟨hr, hsession, hspace, hpending⟩ :=
    mem_pendingShowRequests.mp (List.mem_of_find?_eq_some h)
  have hpred := List.find?_some h
  simp only [Bool.and_eq_true, beq_iff_eq] at hpred
  refine ⟨hr, hpending, ?_⟩
  rw [ShowRequest.ask, hsession, hspace, hpred.1, hpred.2]

theorem pendingAsk_eq_none {session space issue : String} {owner : LinearOwner}
    (h : db.pendingAsk session space issue owner now = none) (hr : r ∈ db.showRequests)
    (hpending : r.isPending now = true) : r.ask ≠ (session, space, issue, owner) := by
  intro heq
  simp only [ShowRequest.ask, Prod.mk.injEq] at heq
  obtain ⟨hsession, hspace, hissue, howner⟩ := heq
  have := List.find?_eq_none.mp h r (mem_pendingShowRequests.mpr ⟨hr, hsession, hspace, hpending⟩)
  simp [hissue, howner] at this

theorem refreshed_key (reason requestedBy expiresAt : Option String) :
    ∀ a : ShowRequest, (a.refreshed reason requestedBy expiresAt).id = a.id := fun _ => rfl

variable {p : LinearShowRequestParams} {known : Bool} {ttlSecs : Int}
    {change : LinearChange ShowRequest} {u : LinearDb}

/-- The owner and the session a request is asked under. -/
def LinearShowRequestParams.asker (p : LinearShowRequestParams) : LinearOwner := cleanOwner p.owner

def LinearShowRequestParams.session (p : LinearShowRequestParams) : String :=
  herdrSession p.asker.herdrSocket

/-- The transaction of a request. -/
def showRequestTx (p : LinearShowRequestParams) (now ttlSecs : Int) :
    LsM (LinearChange ShowRequest) := do
  let db ← get
  match db.pendingAsk p.session p.space p.issue p.asker now with
  | some before =>
      let _ ← ofStore (refreshShowRequest before.id (optLine p.reason) (optLine p.requestedBy)
        (out.datetime (saturate (now + ttlSecs))))
      let db ← get
      pure { before := some before, after := db.showRequests.find? before.id }
  | none =>
      let after ← ofStore (addShowRequest out.sqlNow
        { session := p.session, space := p.space, issue := p.issue, reason := optLine p.reason,
          requestedBy := optLine p.requestedBy, owner := p.asker, expiresAt :=
        out.datetime (saturate (now + ttlSecs)) })
      pure { before := none, after := some after }

theorem linearShowRequest_eq :
    linearShowRequest out p known now ttlSecs =
      (requireKnown p.session p.space p.issue known >>= fun _ =>
        transaction (showRequestTx out p now ttlSecs)) := rfl

theorem atomic_linearShowRequest : Atomic (linearShowRequest out p known now ttlSecs) := by
  rw [linearShowRequest_eq]
  exact readOnly_requireKnown.bind_atomic fun _ => atomic_transaction _

theorem showRequestTx_of_ok (h : linearShowRequest out p known now ttlSecs db = .ok change u) :
    showRequestTx out p now ttlSecs db = .ok change u := by
  rw [linearShowRequest_eq] at h
  obtain ⟨a, v, hknown, htx⟩ := bind_ok.mp h
  cases readOnly_requireKnown.ok hknown
  exact transaction_ok.mp htx

/-- A re-ask refreshes the pending request in its place. -/
theorem showRequestTx_reask (hask : db.pendingAsk p.session p.space p.issue p.asker now = some r)
    (h : showRequestTx out p now ttlSecs db = .ok change u) :
    ∃ reason requestedBy expiresAt,
      change = { before := some r, after := some (r.refreshed reason requestedBy expiresAt) } ∧
      u = db.withShow (rewriteOpen db.showRequests r.id
        (fun a => a.refreshed reason requestedBy expiresAt)
        (refreshed_key reason requestedBy expiresAt)) := by
  obtain ⟨hr, hpending, -⟩ := pendingAsk_eq_some hask
  have hopen := (isPending_iff.mp hpending).1
  rw [showRequestTx, get_bind_run, hask] at h
  obtain ⟨b, v, hrefresh, hrest⟩ := bind_ok.mp h
  obtain ⟨_, w, hcheck, hupdate⟩ := bind_ok.mp (ofStore_ok.mp hrefresh)
  obtain ⟨-, rfl⟩ := fromExcept_ok.mp hcheck
  refine ⟨optLine p.reason, optLine p.requestedBy, out.datetime (saturate (now + ttlSecs)), ?_⟩
  have hrun := updateUnanswered_run (refreshed_key (optLine p.reason) (optLine p.requestedBy)
    (out.datetime (saturate (now + ttlSecs)))) hr hopen
  cases hupdate.symm.trans hrun
  have hafter := find?_rewriteOpen (refreshed_key (optLine p.reason) (optLine p.requestedBy)
    (out.datetime (saturate (now + ttlSecs)))) hr hopen
  cases hrest
  exact ⟨congrArg (LinearChange.mk (some r)) hafter, rfl⟩

/-- Anything else adds a request nobody has pending. -/
theorem showRequestTx_add (hask : db.pendingAsk p.session p.space p.issue p.asker now = none)
    (h : showRequestTx out p now ttlSecs db = .ok change u) :
    ∃ added, added.ask = (p.session, p.space, p.issue, p.asker) ∧
      added.id = db.showRequests.nextKey ∧
      added.outcome = none ∧ added.acknowledgedAt = none ∧ ∀ x, x ∈ u.showRequests ↔
        x ∈ db.showRequests ∨ x = added := by
  rw [showRequestTx, get_bind_run, hask] at h
  obtain ⟨added, v, hadd, hrest⟩ := bind_ok.mp h
  obtain ⟨_, w, hcheck, hinsert⟩ := bind_ok.mp (ofStore_ok.mp hadd)
  obtain ⟨-, rfl⟩ := fromExcept_ok.mp hcheck
  cases hinsert
  cases hrest
  exact ⟨_, rfl, rfl, rfl, rfl, fun x => Table.mem_insert⟩

theorem linearShowRequest_shows :
    Respects (Shows now) (linearShowRequest out p known now ttlSecs) := by
  refine (atomic_linearShowRequest out).respects fun db change u h => ?_
  have htx := showRequestTx_of_ok out h
  cases hask : db.pendingAsk p.session p.space p.issue p.asker now with
  | some r =>
      obtain ⟨hr, hpending, -⟩ := pendingAsk_eq_some hask
      obtain ⟨reason, requestedBy, expiresAt, -, rfl⟩ := showRequestTx_reask out hask htx
      exact shows_rewriteOpen _ hr (isPending_iff.mp hpending).1
        (.refreshed reason requestedBy expiresAt hpending)
  | none =>
      obtain ⟨added, hadded, hid, houtcome, hack, hmem⟩ := showRequestTx_add out hask htx
      apply Relation.ReflTransGen.single
      apply ShowStep.added added
      · intro x hx
        rw [hid]
        exact (Table.lt_nextKey hx).ne
      · simp [ShowRequest.isUnanswered, houtcome, hack]
      · exact ⟨houtcome, hack⟩
      · intro x hx hpending
        rw [hadded]
        exact pendingAsk_eq_none hask hx hpending
      · exact hmem

end HerdrBoard.LocalState
