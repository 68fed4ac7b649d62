import HerdrBoard.Lifecycle.Timeouts
import HerdrBoard.Reconcile.Watched

/-!
# Auto-hops

Between two runs that a human starts, a card is hopped at most `MAX_AUTO_HOPS` times, unless a
restart forgets a count. -/

open Lib HerdrBoard.Core HerdrBoard.Daemon HerdrBoard.Lifecycle HerdrBoard.Reconcile

namespace HerdrBoard.Scheduling

variable {cfg : Config} {env : Env} {E : Event → Prop} {db db' : Db} {d d' : DaemonState} {c : Int}

/-! ## Runs that a step starts -/

/-- A run of the card is there that was not. -/
def Starts (db db' : Db) (cardId : Int) : Prop :=
  ∃ r ∈ db'.runs, r.cardId = cardId ∧ ∀ s ∈ db.runs, s.id ≠ r.id

instance (db db' : Db) (cardId : Int) : Decidable (Starts db db' cardId) :=
  inferInstanceAs (Decidable (∃ r ∈ db'.runs.rows, r.cardId = cardId ∧
    ∀ s ∈ db.runs.rows, s.id ≠ r.id))

def HasOpen (db : Db) (cardId : Int) : Prop := ∃ r ∈ db.runs, r.cardId = cardId ∧ r.isOpen = true

/-- An event that inserts a run. -/
inductive Inserting : Event → Prop
  | enqueue (cardId : Int) (p : EnqueueRun) : Inserting (.enqueue cardId p)
  | hop (runId : Int) (next : EnqueueRun) : Inserting (.hop runId next)

theorem not_starts (h : Via E db db') (hE : ∀ e, E e → ¬Inserting e) : ¬Starts db db' c := by
  rintro ⟨r, hr, -, hnew⟩
  have hback : ∃ s ∈ db.runs, s.id = r.id := by
    have hall : ∀ r ∈ db'.runs, ∃ s ∈ db.runs, s.id = r.id := by
      refine System.Steps.preserves (I := fun l => ∀ r ∈ l.runs, ∃ s ∈ db.runs, s.id = r.id) ?_ h
        fun r hr => ⟨r, hr, rfl⟩
      intro l e l' hold he hstep r hr
      have hstep : Step l e l' := hstep
      rcases hstep.run_back hr with ⟨s, hs, hev⟩ | hins
      · obtain ⟨t, ht, hid⟩ := hold s hs
        exact ⟨t, ht, hid.trans hev.key.symm⟩
      · refine absurd ?_ (hE e he)
        cases hins with
        | enqueue => exact .enqueue _ _
        | hop => exact .hop _ _
    exact hall r hr
  obtain ⟨s, hs, hid⟩ := hback
  exact hnew s hs hid

/-- The rows of a run before and after events that delete none. -/
theorem same_row (h : Via E db db') (hkeep : ∀ id, ¬E (.remove id)) {r r' : Run} (hr : r ∈ db.runs)
    (hr' : r' ∈ db'.runs)
    (hid : r.id = r'.id) : r'.cardId = r.cardId ∧ (r'.isOpen = true → r.isOpen = true) := by
  have hkept : ∃ s ∈ db'.runs, s.id = r.id ∧ s.cardId = r.cardId ∧
      (s.isOpen = true → r.isOpen = true) := by
    refine System.Steps.preserves
      (I := fun l => ∃ s ∈ l.runs, s.id = r.id ∧ s.cardId = r.cardId ∧
      (s.isOpen = true → r.isOpen = true)) ?_ h ⟨r, hr, rfl, rfl, id⟩
    rintro l e l' ⟨s, hs, hsid, hscard, hopen⟩ he hstep
    have hstep : Step l e l' := hstep
    obtain ⟨t, ht, hev⟩ := hstep.run_forth hs fun heq => hkeep _ (heq ▸ he)
    refine ⟨t, ht, hev.key.trans hsid, hev.cardId.trans hscard, fun htopen => hopen ?_⟩
    cases hev with
    | same => exact htopen
    | promote _ a hqueued => exact isOpen_of_isQueued hqueued
    | signal _ deadline paused hactive => exact isOpen_of_isActive hactive
    | finish _ now outcome summary hopen => exact hopen
    | hop _ next now outcome summary hopen => exact hopen
  obtain ⟨s, hs, hsid, hscard, hopen⟩ := hkept
  cases Table.eq_of_key_eq hr' hs (hid.symm.trans hsid.symm)
  exact ⟨hscard, hopen⟩

/-- A card without a new run has an open run only if it had one. -/
theorem hasOpen_of_not_starts (h : Via E db db') (hE : DeletesOrKeeps E)
    (hstarts : ¬Starts db db' c) (hopen : HasOpen db' c) : HasOpen db c := by
  obtain ⟨r', hr', hcard, hopen⟩ := hopen
  obtain ⟨r, hr, hid⟩ : ∃ r ∈ db.runs, r.id = r'.id := by
    by_contra hnone
    push Not at hnone
    exact hstarts ⟨r', hr', hcard, hnone⟩
  cases hE with
  | inl hkeep =>
      obtain ⟨hsame, hwas⟩ := same_row h hkeep hr hr' hid
      exact ⟨r, hr, hsame.symm.trans hcard, hwas hopen⟩
  | inr hdelete =>
      have hold : ∀ s ∈ db'.runs, s ∈ db.runs := by
        refine System.Steps.preserves (I := fun l => ∀ s ∈ l.runs, s ∈ db.runs) ?_ h fun _ => id
        intro l e l' hold he hstep s hs
        have hstep : Step l e l' := hstep
        obtain ⟨id, rfl⟩ := hdelete e he
        rcases hstep.run_back hs with ⟨t, ht, hev⟩ | hins
        · cases hev
          exact hold _ ht
        · cases hins
      exact ⟨r', hold r' hr', hcard, hopen⟩

/-! ## Steps that leave the counts of open runs alone -/

/-- The count of auto-hops of a card. -/
def hopCount (d : DaemonState) (cardId : Int) : Nat := (d.sched.chainHops.lookup cardId).getD 0

/-- A card with an open run before and after keeps its count. -/
def KeepsHops (d d' : DaemonState) : Prop :=
  ∀ c, HasOpen d.db c → HasOpen d'.db c → hopCount d' c = hopCount d c

instance : Std.Refl KeepsHops := ⟨fun _ _ _ _ => rfl⟩

theorem keepsHops_of_eq (h : d'.sched.chainHops = d.sched.chainHops) :
    KeepsHops d d' := fun c _ _ => by
  rw [hopCount, hopCount, h]

theorem keepsHops_of_sched (h : d'.sched = d.sched) : KeepsHops d d' :=
  keepsHops_of_eq (congrArg Sched.chainHops h)

theorem sched_store {α : Type} (x : StoreM α) (d : DaemonState) :
    (finalState (store x d)).sched = d.sched := by
  rw [store, finalState_zoom]

/-- The count of a card is forgotten where it has no open run, before or after. -/
theorem keepsHops_erase {cardId : Int} (hcard : ¬HasOpen d.db cardId ∨ ¬HasOpen d'.db cardId)
    (hhops : d'.sched.chainHops = d.sched.chainHops.erase cardId) : KeepsHops d d' := by
  intro c hbefore hafter
  have hne : c ≠ cardId := by
    rintro rfl
    rcases hcard with h | h
    · exact h hbefore
    · exact h hafter
  rw [hopCount, hopCount, hhops, AList.lookup_erase_ne hne]

theorem not_hasOpen_of_openRunForCard {cardId : Int}
    (h : ¬(db.openRunForCard cardId).isSome = true) : ¬HasOpen db cardId := by
  rintro ⟨r, hr, hcard, hopen⟩
  have hclosed := closed_of_openRunForCard (Option.not_isSome_iff_eq_none.mp h) r hr hcard
  rw [hopen] at hclosed
  cases hclosed

/-- Entering a column with a run forgets the count of a card that had no open run. -/
theorem keepsHops_forget {α : Type} {x : StoreM (Card × Bool)} {f : Card × Bool → α}
    (hx : ∀ entered db', x d.db = .ok entered db' → entered.2 = true → ¬HasOpen d.db entered.1.id) :
    KeepsHops d (finalState ((do
      let entered ← store x
      modify (forgetHops entered)
      pure (f entered) : DaemonM α) d)) := by
  rw [run_bind]
  cases hstore : store x d with
  | error e t =>
      have hsched := sched_store x d
      rw [hstore] at hsched
      exact keepsHops_of_sched hsched
  | ok entered t =>
      obtain ⟨db', hok, rfl⟩ := store_ok.mp hstore
      show KeepsHops d (forgetHops entered { d with db := db' })
      unfold forgetHops
      split
      · next hentered => exact keepsHops_erase (.inl (hx entered db' hok hentered)) rfl
      · exact keepsHops_of_eq rfl

theorem createCardAndEnqueueUow_id {conn : Conn} {p : CardCreateParams} {run : EnqueueRun}
    {created : Card × Run} (h : createCardAndEnqueueUow conn p run db = .ok created db') :
    created.1.id = db.cards.nextKey := by
  simp only [createCardAndEnqueueUow, bind_ok, pure_ok, transaction_ok, requireCard_ok,
    insertCard_ok] at h
  obtain ⟨_, t₁, hboard, _, t₂, hdefault, _, t₃, hcolumn, _, t₄, hrefuse, _, t₅, hrefuse', _, t₆,
    hget, ids, t₇, ⟨cardId, t₈, ⟨-, hid⟩, hrest⟩, _, _, ⟨hcard, -⟩, _, _, -, rfl, -⟩ := h
  cases (readOnly_getBoard _).ok hboard
  cases (readOnly_defaultColumnId _).ok hdefault
  cases (readOnly_requireColumn _).ok hcolumn
  cases (readOnly_refuse _ _).ok hrefuse
  cases (readOnly_refuse _ _).ok hrefuse'
  obtain ⟨-, rfl⟩ := get_ok.mp hget
  have hids : ids.1 = cardId := by
    rcases ite_ok.mp hrest with ⟨-, h⟩ | ⟨-, h⟩
    · obtain ⟨_, _, -, h⟩ := bind_ok.mp h
      obtain ⟨_, _, -, h⟩ := bind_ok.mp h
      exact congrArg Prod.fst (pure_ok.mp h).1.symm
    · obtain ⟨_, _, -, h⟩ := bind_ok.mp h
      exact congrArg Prod.fst (pure_ok.mp h).1.symm
  exact (Table.key_of_find? hcard).trans (hids.trans hid)

theorem createEntering_fresh {p : CardCreateParams} {entered : Card × Bool}
    (h : createEntering cfg env p db = .ok entered db') (hrun : entered.2 = true) :
    ¬HasOpen db entered.1.id := by
  obtain ⟨pending, t, hpending, h⟩ := bind_ok.mp h
  cases (readOnly_pendingCreateCard p).ok hpending
  obtain ⟨column, t, hcolumn, h⟩ := bind_ok.mp h
  cases (readOnly_requireColumn _).ok hcolumn
  rcases ite_ok.mp h with ⟨-, h⟩ | ⟨-, h⟩
  · obtain ⟨prepared, t, hprepared, h⟩ := bind_ok.mp h
    cases (readOnly_prepareEnqueueValues _ _ _).ok hprepared
    obtain ⟨created, t, hcreated, h⟩ := bind_ok.mp h
    obtain ⟨rfl, -⟩ := pure_ok.mp h
    rintro ⟨r, hr, hcard, -⟩
    obtain ⟨c, hc, hid⟩ := Db.run_card hr
    have hlt : c.id < db.cards.nextKey := Table.lt_nextKey hc
    rw [hid, hcard, createCardAndEnqueueUow_id hcreated] at hlt
    exact lt_irrefl _ hlt
  · obtain ⟨card, t, -, h⟩ := bind_ok.mp h
    obtain ⟨rfl, -⟩ := pure_ok.mp h
    cases hrun

theorem moveCardAndEnqueueUow_closed {conn : Conn} {id column : Int} {position : Option Int}
    {run : EnqueueRun} {moved : Card × Run}
    (h : moveCardAndEnqueueUow conn id column position run db = .ok moved db') :
    moved.1.id = id ∧ ¬HasOpen db id := by
  simp only [moveCardAndEnqueueUow, bind_ok, requireCard_ok, requireColumn_ok, refuse_ok, get_ok,
    pure_ok] at h
  obtain ⟨_, _, ⟨-, rfl⟩, _, _, ⟨-, rfl⟩, _, _, ⟨-, rfl⟩, _, _, ⟨-, rfl⟩, _, _, ⟨rfl, rfl⟩, _, _,
    ⟨hnone, rfl⟩, _, _, -, _, _, ⟨hcard, -⟩, _, _, -, rfl, -⟩ := h
  exact ⟨Table.key_of_find? hcard, not_hasOpen_of_openRunForCard hnone⟩

theorem transferCardAndEnqueueUow_closed {conn : Conn} {id board column : Int}
    {position : Option Int} {run : EnqueueRun} {moved : Card × Run}
    (h : transferCardAndEnqueueUow conn id board column position run db = .ok moved db') :
    moved.1.id = id ∧ ¬HasOpen db id := by
  simp only [transferCardAndEnqueueUow, bind_ok, requireCard_ok, getBoard_ok, requireColumn_ok,
    refuse_ok, get_ok, pure_ok] at h
  obtain ⟨_, _, ⟨-, rfl⟩, _, _, ⟨-, rfl⟩, _, _, ⟨-, rfl⟩, _, _, ⟨-, rfl⟩, _, _, ⟨-, rfl⟩, _, _,
    ⟨rfl, rfl⟩, _, _, ⟨hnone, rfl⟩, _, _, -, _, _, ⟨hcard, -⟩, _, _, -, rfl, -⟩ := h
  exact ⟨Table.key_of_find? hcard, not_hasOpen_of_openRunForCard hnone⟩

theorem moveWithin_closed {p : CardMoveParams} {moved : Card × Bool}
    (h : moveWithin cfg env p db = .ok moved db')
    (hrun : moved.2 = true) : ¬HasOpen db moved.1.id := by
  obtain ⟨current, t, hcurrent, h⟩ := bind_ok.mp h
  cases (readOnly_requireCard _).ok hcurrent
  obtain ⟨target, t, htarget, h⟩ := bind_ok.mp h
  cases (readOnly_moveTarget _ _).ok htarget
  rcases ite_ok.mp h with ⟨-, h⟩ | ⟨-, h⟩
  · obtain ⟨card, t, -, h⟩ := bind_ok.mp h
    obtain ⟨rfl, -⟩ := pure_ok.mp h
    cases hrun
  · obtain ⟨_, t, hcheck, h⟩ := bind_ok.mp h
    cases (readOnly_checkTransfer _ _ _).ok hcheck
    unfold moveEntering at h
    rcases ite_ok.mp h with ⟨-, h⟩ | ⟨-, h⟩
    · obtain ⟨prepared, t, hprepared, h⟩ := bind_ok.mp h
      cases (readOnly_prepareEnqueueValues _ _ _).ok hprepared
      cases hcross : crossBoard p current with
      | some board =>
          simp only [hcross] at h
          obtain ⟨entered, t, hentered, h⟩ := bind_ok.mp h
          obtain ⟨rfl, -⟩ := pure_ok.mp h
          obtain ⟨hid, hclosed⟩ := transferCardAndEnqueueUow_closed hentered
          rwa [hid]
      | none =>
          simp only [hcross] at h
          obtain ⟨entered, t, hentered, h⟩ := bind_ok.mp h
          obtain ⟨rfl, -⟩ := pure_ok.mp h
          obtain ⟨hid, hclosed⟩ := moveCardAndEnqueueUow_closed hentered
          rwa [hid]
    · cases hcross : crossBoard p current with
      | some board =>
          simp only [hcross] at h
          obtain ⟨card, t, -, h⟩ := bind_ok.mp h
          obtain ⟨rfl, -⟩ := pure_ok.mp h
          cases hrun
      | none =>
          simp only [hcross] at h
          obtain ⟨card, t, -, h⟩ := bind_ok.mp h
          obtain ⟨rfl, -⟩ := pure_ok.mp h
          cases hrun

theorem keepsHops_cardCreate (p : CardCreateParams) (d : DaemonState) :
    KeepsHops d (finalState (cardCreate cfg env p d)) :=
  (readOnly_fromExcept _).bind_at fun _ _ => keepsHops_forget fun _ _ h hrun =>
    createEntering_fresh h hrun

theorem keepsHops_cardMove (p : CardMoveParams) (d : DaemonState) :
    KeepsHops d (finalState (cardMove cfg env p d)) :=
  keepsHops_forget fun _ _ h hrun => moveWithin_closed h hrun

/-- A request that forgets the count of a card without an open run, before or after it. -/
theorem keepsHops_store_erase {α : Type} {x : StoreM α} {cardId : Int}
    (hx : ∀ a db', x d.db = .ok a db' → ¬HasOpen d.db cardId ∨ ¬HasOpen db' cardId) :
    KeepsHops d (finalState ((do
      let a ← store x
      modify fun d => { d with sched.chainHops := d.sched.chainHops.erase cardId }
      pure a : DaemonM α) d)) := by
  rw [run_bind]
  cases hstore : store x d with
  | error e t =>
      have hsched := sched_store x d
      rw [hstore] at hsched
      exact keepsHops_of_sched hsched
  | ok a t =>
      obtain ⟨db', hok, rfl⟩ := store_ok.mp hstore
      exact keepsHops_erase (hx a db' hok) rfl

theorem keepsHops_retryReset (cardId : Int) (d : DaemonState) :
    KeepsHops d (finalState (retryReset cardId d)) := by
  refine keepsHops_store_erase fun card db' h => .inl ?_
  obtain ⟨current, t, hcurrent, h⟩ := bind_ok.mp h
  cases (readOnly_requireCard _).ok hcurrent
  obtain ⟨_, t, hrefuse, h⟩ := bind_ok.mp h
  cases (readOnly_refuse _ _).ok hrefuse
  obtain ⟨board, t, hboard, h⟩ := bind_ok.mp h
  cases (readOnly_getBoard _).ok hboard
  obtain ⟨_, t, hrefuse, h⟩ := bind_ok.mp h
  cases (readOnly_refuse _ _).ok hrefuse
  obtain ⟨project, t, hproject, h⟩ := bind_ok.mp h
  cases (readOnly_getProject _).ok hproject
  obtain ⟨_, t, hrefuse, h⟩ := bind_ok.mp h
  cases (readOnly_refuse _ _).ok hrefuse
  obtain ⟨_, t, hget, h⟩ := bind_ok.mp h
  obtain ⟨rfl, rfl⟩ := get_ok.mp hget
  obtain ⟨_, t, hrefuse, h⟩ := bind_ok.mp h
  exact not_hasOpen_of_openRunForCard (refuse_ok.mp hrefuse).1

/-- The card of a run that ended without a next one has no open run. -/
theorem not_hasOpen_of_finish {conn : Conn} {p : FinalizeRun} {effects : FinalizeEffects}
    {run : Run} (hnext : p.next = none) (hreason : p.finalAwaitingReason = none)
    (hrun : db.run? p.runId = some run)
    (h : finalizeRunUow conn p db = .ok effects db') : ¬HasOpen db' run.cardId := by
  obtain ⟨found, hfind, hopen, hlife⟩ := life_finalize hnext hreason h
  cases hrun.symm.trans hfind
  have hruns : Life.RewritesRun db.runs db'.runs run fun r =>
      endedRun r conn.now p.outcome p.summary :=
    congrArg (fun l : Life => l.runs.rows) hlife
  rintro ⟨r, hr, hcard, hropen⟩
  obtain ⟨s, hs, rfl⟩ := hruns.mem_iff.mp hr
  split at hropen
  · simp [endedRun, Run.isOpen] at hropen
  · next hne =>
      rw [if_neg hne] at hcard
      exact hne (congrArg Run.id
        (Db.open_run_unique hs (Table.mem_of_find? hrun) hcard hropen hopen))

theorem keepsHops_cancelQueued (cardId : Int) (d : DaemonState) :
    KeepsHops d (finalState (cancelQueued env cardId d)) := by
  refine keepsHops_store_erase fun effects db' h => .inr ?_
  simp only [bind_ok, get_ok, okOr_ok] at h
  obtain ⟨_, _, ⟨rfl, rfl⟩, queued, _, ⟨hqueued, rfl⟩, h⟩ := h
  obtain ⟨hopen, -⟩ := Option.filter_eq_some_iff.mp hqueued
  obtain ⟨hmem, hselected⟩ := Table.mem_select.mp (List.mem_of_getLast? hopen)
  simp only [Bool.and_eq_true, beq_iff_eq] at hselected
  have hfind : d.db.run? queued.id = some queued := Table.find?_key hmem
  have hclosed := not_hasOpen_of_finish rfl rfl hfind h
  rwa [hselected.1] at hclosed

theorem keepsHops_request (d : DaemonState) (r : Request) :
    KeepsHops d (serveRequest cfg env d r) := by
  cases r with
  | cardCreate p => exact keepsHops_cardCreate p d
  | cardMove p => exact keepsHops_cardMove p d
  | runRetryReset cardId => exact keepsHops_retryReset cardId d
  | runCancelQueued cardId => exact keepsHops_cancelQueued cardId d
  | columnCreate p => exact (readOnly_fromExcept _).bind_at fun _ _ =>
      keepsHops_of_sched (sched_store _ d)
  | _ => exact keepsHops_of_sched (sched_store _ d)

/-! ## The next run of a finished one -/

/-- How many runs of the card are there that were not. -/
def startedRuns (db db' : Db) (cardId : Int) : Nat :=
  db'.runs.rows.countP fun r => r.cardId == cardId && db.runs.rows.all fun s => s.id != r.id

theorem startedRuns_of_not_starts (h : ¬Starts db db' c) : startedRuns db db' c = 0 := by
  refine List.countP_eq_zero.mpr fun r hr hnew => h ⟨r, hr, ?_⟩
  simp only [Bool.and_eq_true, beq_iff_eq, List.all_eq_true, bne_iff_ne] at hnew
  exact hnew

/-- The run of the card that ended was followed by the next one, within the limit. -/
structure HopsOn (d d' : DaemonState) (cardId : Int) : Prop where
  hasOpen : HasOpen d.db cardId
  limit : nextHop (hopCount d cardId) ≤ MAX_AUTO_HOPS
  count : hopCount d' cardId = nextHop (hopCount d cardId)
  one : startedRuns d.db d'.db cardId = 1
  other : ∀ c, c ≠ cardId → hopCount d' c = hopCount d c ∧ ¬Starts d.db d'.db c

/-- No run was added. -/
structure NoHop (d d' : DaemonState) : Prop where
  keeps : KeepsHops d d'
  starts : ∀ c, ¬Starts d.db d'.db c

instance : Std.Refl NoHop := ⟨fun d => ⟨refl_of KeepsHops d, fun _ => by
  rintro ⟨r, hr, -, hnew⟩
  exact hnew r hr rfl⟩⟩

/-- A hop adds one run, to the card of the run that ended. -/
theorem startedRuns_hop {run : Run} {now : String} {outcome : RunOutcome} {summary : Option String}
    {next : EnqueueRun}
    (hlife : life db'.toTables = (life db.toTables).hop run now outcome summary next) (c : Int) :
    startedRuns db db' c = if run.cardId = c then 1 else 0 := by
  have hruns : db'.runs.rows = (db.runs.rows.map fun r =>
      if r.id == run.id then
        { r with endedAt := some now, outcome := some outcome, resultSummary := summary } else r) ++
        [queuedRun run.cardId
          next ((life db.toTables).endRun run.id now outcome summary).nextKey] :=
    congrArg (fun l : Life => l.runs.rows) hlife
  have hold : (db.runs.rows.map fun r => if r.id == run.id then
        { r with endedAt := some now, outcome := some outcome, resultSummary := summary }
          else r).countP
      (fun r => r.cardId == c && db.runs.rows.all fun s => s.id != r.id) = 0 := by
    refine List.countP_eq_zero.mpr fun r hr hnew => ?_
    obtain ⟨s, hs, rfl⟩ := List.mem_map.mp hr
    simp only [Bool.and_eq_true, List.all_eq_true, bne_iff_ne] at hnew
    refine hnew.2 s hs ?_
    split <;> rfl
  have hfresh : (db.runs.rows.all fun s => s.id != db.runs.nextKey) = true := by
    simp only [List.all_eq_true, bne_iff_ne]
    intro s hs
    exact ne_of_lt (Table.lt_nextKey (t := db.runs) hs)
  rw [nextKey_endRun] at hruns
  rw [startedRuns, hruns, List.countP_append, hold, List.countP_singleton]
  by_cases hc : run.cardId = c
  · simp [queuedRun, hc, hfresh]
  · simp [queuedRun, hc]

theorem not_starts_of_startedRuns (h : startedRuns db db' c = 0) : ¬Starts db db' c := by
  rintro ⟨r, hr, hcard, hnew⟩
  refine List.countP_eq_zero.mp h r hr ?_
  simp only [Bool.and_eq_true, beq_iff_eq, List.all_eq_true, bne_iff_ne]
  exact ⟨hcard, hnew⟩

section Finalize

variable {runId : Int} {outcome : RunOutcome} {summary extraComment : Option String}
    {kill transition : Bool}

/-- A plan with a next run counts it, within the limit. -/
theorem makesPlan_hops {run : Run} {card : Card} {plan : TransitionPlan}
    (h : MakesPlan cfg env d run card outcome transition plan) :
    (plan.next = none ∧ plan.nextHops = none) ∨ (∃ next, plan.next = some next) ∧
      nextHop (hopCount d card.id) ≤ MAX_AUTO_HOPS ∧
      plan.nextHops = some (nextHop (hopCount d card.id)) := by
  cases h with
  | stayPut => exact .inl ⟨rfl, rfl⟩
  | transition elapsed _ h =>
      obtain ⟨current, -, h⟩ := planTransition_cases h
      cases h with
      | stay | manual | suppressed | stopped => exact .inl ⟨rfl, rfl⟩
      | hop comments target prepared htarget hauto hlimit hprepared =>
          exact .inr ⟨⟨prepared, rfl⟩, hlimit, rfl⟩

theorem hops_finalizes
    (h : FinalizesAsPlanned cfg env runId outcome summary extraComment kill transition d d') :
    NoHop d d' ∨ ∃ cardId, HopsOn d d' cardId := by
  obtain rfl | ⟨run, card, plan, hcard, hplan, hfin⟩ := h
  · exact .inl (refl_of NoHop _)
  · obtain ⟨effects, huow⟩ := hfin.committed
    have hid : card.id = run.cardId := Table.key_of_find? hcard
    rcases makesPlan_hops hplan with ⟨hnext, hhops⟩ | ⟨⟨next, hnext⟩, hlimit, hhops⟩
    · have hnone : (plan.finalize runId outcome summary extraComment).next = none := by
        simp [TransitionPlan.finalize, hnext]
      have hvia : Via (fun e => e = .finish runId) d.db d'.db :=
        (via_finalize (E := fun e => e = .finish runId) rfl hnone rfl (hfin.planOk.closed hnext)).ok
          huow
      refine .inl ⟨?_, fun c => not_starts hvia fun e he => ?_⟩
      · refine keepsHops_erase (.inr (not_hasOpen_of_finish hnone rfl hfin.found huow)) ?_
        rw [hfin.settled, hhops]
        rfl
      · rw [he]
        intro hins
        cases hins
    · have hsome : (plan.finalize runId outcome summary extraComment).next =
          some next.borrowed := by
        simp [TransitionPlan.finalize, hnext]
      obtain ⟨found, hfind, -, hlife⟩ := life_hop hsome huow
      cases hfin.found.symm.trans hfind
      have hchain : d'.sched.chainHops = d.sched.chainHops.insert run.cardId
          (nextHop (hopCount d card.id)) := by
        rw [hfin.settled, hhops]
        rfl
      rw [hid] at hlimit hchain
      refine .inr ⟨run.cardId, ⟨run, Table.mem_of_find? hfin.found, rfl, hfin.isOpen⟩, hlimit, ?_,
        ?_, fun c hne => ⟨?_, ?_⟩⟩
      · rw [hopCount, hchain, AList.lookup_insert, Option.getD_some]
      · rw [startedRuns_hop hlife, if_pos rfl]
      · rw [hopCount, hchain, AList.lookup_insert_ne hne, hopCount]
      · refine not_starts_of_startedRuns ?_
        rw [startedRuns_hop hlife, if_neg hne.symm]

end Finalize

/-! ## Every step -/

theorem noHop_of_via (h : Via E d.db d'.db) (hE : ∀ e, E e → ¬Inserting e)
    (hhops : d'.sched.chainHops = d.sched.chainHops) : NoHop d d' :=
  ⟨keepsHops_of_eq hhops, fun _ => not_starts h hE⟩

theorem noHop_of_db (hdb : d'.db = d.db) (hhops : d'.sched.chainHops = d.sched.chainHops) :
    NoHop d d' := by
  refine noHop_of_via (E := fun _ => False) ?_ (fun _ h => h.elim) hhops
  rw [hdb]
  exact refl_of (Via _) _

theorem noHop_signal (hinv : Inv (life d.db.toTables)) (runId cardId : Int) (signal : AgentSignal)
    (guard : SignalGuard) : NoHop d (applySignalGuarded env runId cardId signal guard d) := by
  refine noHop_of_via (via_applySignalGuarded (E := fun e => e = .signal runId) hinv rfl)
    (fun e he => ?_) ?_
  · rw [he]
    intro hins
    cases hins
  · obtain h | ⟨active, run, card, dec, h⟩ :
        applySignalGuarded env runId cardId signal guard d = d ∨ _ :=
      applySignalGuarded_cases runId cardId signal guard d
    · rw [h]
    · rw [h.settled]

theorem noHop_setIdle (runId : Int) (idleSince : Option Instant) :
    NoHop d (setIdle runId idleSince d) := by
  unfold setIdle
  cases d.sched.active.lookup runId with
  | none => exact refl_of NoHop d
  | some a => exact noHop_of_db rfl rfl

theorem noHop_armIdle (runId : Int) : NoHop d (armIdle env runId d) := by
  unfold armIdle
  cases d.sched.active.lookup runId with
  | none => exact refl_of NoHop d
  | some a =>
      simp only
      split
      · exact refl_of NoHop d
      · exact noHop_setIdle runId _

theorem hops_watch (hinv : Inv (life d.db.toTables)) (x : Watch) :
    NoHop d (serveWatch cfg env d x) ∨ ∃ cardId, HopsOn d (serveWatch cfg env d x) cardId := by
  cases x with
  | finalizeRun runId outcome summary extra kill transition =>
      exact hops_finalizes (finalizeRun_planned d)
  | candidate c now =>
      show NoHop d (applyCandidate cfg env c now d) ∨
          ∃ cardId, HopsOn d (applyCandidate cfg env c now d) cardId
      unfold applyCandidate
      split
      · exact hops_finalizes (finalizeRunInner_planned (some now) d)
      · cases c.observedIdleSince with
        | some observed => exact .inl (noHop_signal hinv c.runId c.cardId .idleExpired _)
        | none => exact .inl (refl_of NoHop d)
  | signal runId cardId signal => exact .inl (noHop_signal hinv runId cardId signal .none)
  | clearIdle runId => exact .inl (noHop_setIdle runId none)
  | armIdle runId => exact .inl (noHop_armIdle runId)
  | forget runId =>
      show NoHop d (if runOpen d runId then d else _) ∨ _
      split
      · exact .inl (refl_of NoHop d)
      · exact .inl (noHop_of_db rfl rfl)

theorem noHop_dispatch (w : World) (x : Dispatch) :
    NoHop w.daemon (serveDispatch cfg env w x).daemon := by
  refine noHop_of_via (via_dispatch w x) (fun e he => ?_) ?_
  · intro hins
    cases he <;> cases hins
  · cases x with
    | readActive =>
        simp only [serveDispatch]
        split <;> rfl
    | claim =>
        simp only [serveDispatch]
        cases w.pass <;> rfl
    | registered claimed column handle =>
        simp only [serveDispatch]
        split
        · rcases registerSpawnedRun_cases env claimed.1.id handle env.instant
              (startDeadlines cfg env column).1
            (startDeadlines cfg env column).2 w.daemon with h | ⟨run, h⟩
          · rw [h]
            rfl
          · rw [h.settled]
        · rfl
    | failed claimed reason =>
        simp only [serveDispatch]
        split
        · rw [failQueuedRun, finalState_bind_readOnly fun _ => readOnly_pure _, sched_store]
        · rfl
    | abandoned claimed => rfl
    | warned cardId body => exact congrArg Sched.chainHops (sched_store _ w.daemon)

theorem noHop_adopt (w : World) (x : Adopt) : NoHop w.daemon (serveAdopt env w x).daemon := by
  refine noHop_of_db (adopt_db w x) ?_
  cases x with
  | observe a =>
      simp only [serveAdopt]
      cases sameOpenRun w.daemon.db a.run a.cardId <;> rfl
  | insert a =>
      simp only [serveAdopt]
      split
      · split
        · rfl
        · unfold insertReconciled
          split <;> rfl
      · rfl

end HerdrBoard.Scheduling
