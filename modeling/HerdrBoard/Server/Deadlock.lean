import HerdrBoard.Server.Outbox

/-!
# When the outbox is safe

As long as every response finds room, no task waits for itself and no response is lost or reordered.
The first one that does not find room waits for the lock it holds, and with it every other task. -/

namespace HerdrBoard.Server

open Lib

variable {τ : Type} [DecidableEq τ] {capacity : Nat} {s s' : Outbox τ} {l : Step τ}
    {t u : τ} {p : Pc}

/-! ## The lock -/

/-- A task that waits for the lock it holds. -/
def SelfWait (s : Outbox τ) (t : τ) : Prop := (s.pc t).awaitsLock = true ∧ s.holder = some t

/-- Points after a response that found no room. -/
def Pc.retries : Pc → Bool
  | .responseClosed .. | .responseWait .. | .responseParked _ | .done (.response false) => true
  | _ => false

def Pc.stuck : Pc → Bool
  | .responseRelock .. => true
  | _ => false

/-- The lock is held by the task that is at a point where it holds it, and no task came
past a retry. -/
structure LockOk (s : Outbox τ) : Prop where
  holder : ∀ u, s.holder = some u ↔ (s.pc u).holdsLock = true
  retries : ∀ u, (s.pc u).retries = false

/-- One task moves, and the lock goes with it. -/
theorem LockOk.update (h : LockOk s) (hpc : s'.pc = Function.update s.pc t p)
    (hretries : p.retries = false)
    (hself : s'.holder = some t ↔ p.holdsLock = true) (hother : ∀ u ≠ t, s'.holder = some u ↔
    s.holder = some u) : LockOk s' where
  holder u := by
    rw [hpc]
    by_cases hu : u = t
    · rw [hu, Function.update_self, hself]
    · rw [Function.update_of_ne hu, hother u hu, h.holder]
  retries u := by
    rw [hpc]
    by_cases hu : u = t
    · rw [hu, Function.update_self, hretries]
    · rw [Function.update_of_ne hu, h.retries]

/-- The lines of the responses among the entries. -/
def responses (entries : List Outbound) : List String :=
  entries.filterMap fun
    | .response line => some line
    | .event _ => none

theorem responses_append (xs ys : List Outbound) :
    responses (xs ++ ys) = responses xs ++ responses ys :=
  List.filterMap_append ..

theorem responses_dropLast {xs : List Outbound}
    (h : xs.getLast?.any Outbound.isBoardChanged = true) :
    responses xs.dropLast = responses xs := by
  cases hlast : xs.getLast? with
  | none => simp [hlast] at h
  | some x =>
      rw [hlast] at h
      cases x with
      | response line => cases h
      | event ev =>
          conv_rhs => rw [← List.dropLast_append_getLast? _ hlast, responses_append]
          simp [responses]

/-- Events neither add nor drop responses. -/
theorem responses_pushEvent (b : Buffer) (ev : Event) :
    responses (b.pushEvent ev).2.entries = responses b.entries := by
  rcases b.pushEvent_cases ev with ⟨-, h⟩ | ⟨hco, -, -, h⟩ | ⟨-, -, -, h⟩ | ⟨-, -, -, h⟩
  · rw [h]
  · rw [h, responses_append, responses_dropLast hco.2.2]
    simp [responses]
  · rw [h, responses_append]
    simp [responses]
  · rw [h]

/-- What a step does: it moves one task, which takes the lock, works under it, or neither. -/
inductive Outbox.Moves (s : Outbox τ) : Step τ → Outbox τ → Prop
  | stays (l : Step τ) : Moves s l s
  | goes (l : Step τ) (t : τ) (p : Pc) (s' : Outbox τ) (hpc : s'.pc = Function.update s.pc t p)
      (hheld : (s.pc t).holdsLock = false) (hp : p.holdsLock = false)
      (hretries : (s.pc t).retries = false → p.retries = false)
      (hholder : s'.holder = s.holder) (hbuffer : s'.buffer = s.buffer)
      (hoffered : s'.offered = s.offered) (hpopped : s'.popped = s.popped) : Moves s l s'
  | locks (t : τ) (p : Pc) (hfree : s.holder = none) (hp : (s.pc t).locked = some p) :
      Moves s (.lock t) { s.goto t p with holder := some t }
  | blocks (t : τ) (line : String) (since : Nat) (hpc : s.pc t = .responsePush line since)
      (hroom : s.buffer.closed = true ∨ s.buffer.full = true) :
      Moves s (.run t) { s.goto t (.responseRelock line since) with offered := s.offered ++ [line] }
  | releases (t : τ) (p : Pc) (s' : Outbox τ) (hheld : (s.pc t).holdsLock = true)
      (hstuck : (s.pc t).stuck = false)
      (hp : p.holdsLock = false) (hpc : s'.pc = Function.update s.pc t p)
      (hholder : s'.holder = none) (hretries : (s.pc t).retries = false → p.retries = false)
      (hresponses : responses s'.popped ++ responses s'.buffer.entries = s'.offered ↔
        responses s.popped ++ responses s.buffer.entries = s.offered) : Moves s (.run t) s'

theorem Outbox.moves_run (t : τ) : s.Moves (.run t) (s.next (.run t)) := by
  simp only [Outbox.next, Outbox.runHolder]
  cases hpc : s.pc t with
  | responsePush line since =>
      cases hpush : s.buffer.pushResponse line with
      | ok buffer =>
          obtain ⟨-, -, hentries, -⟩ := s.buffer.pushResponse_ok hpush
          simp only [hpush]
          refine .releases t (.done (.response true)) _ ?_ ?_ rfl ?_ ?_ (fun _ => rfl) ?_
          all_goals simp [hpc, Pc.holdsLock, Pc.stuck, Outbox.release, Outbox.goto]
          simp [responses, hentries, ← List.append_assoc]
      | error returned =>
          have hreturned : returned = line := by
            unfold Buffer.pushResponse at hpush
            split at hpush
            · cases hpush
            · exact (Except.error.inj hpush).symm
          simp only [hpush, hreturned]
          exact .blocks t line since hpc (s.buffer.pushResponse_error.mp ⟨returned, hpush⟩)
  | responseClosed line since =>
      have hheld : (s.pc t).holdsLock = true := by simp [hpc, Pc.holdsLock]
      have hretries : (s.pc t).retries = true := by simp [hpc, Pc.retries]
      simp only
      split
      · exact .releases t _ _ hheld (by simp [hpc, Pc.stuck]) rfl rfl rfl
          (fun h => by simp [h] at hretries) Iff.rfl
      · exact .releases t _ _ hheld (by simp [hpc, Pc.stuck]) rfl rfl rfl
          (fun h => by simp [h] at hretries) Iff.rfl
  | eventPush ev =>
      have hheld : (s.pc t).holdsLock = true := by simp [hpc, Pc.holdsLock]
      refine .releases t (.eventNotify (s.buffer.pushEvent ev).1) _ hheld (by simp [hpc, Pc.stuck])
        rfl rfl rfl (fun _ => rfl) ?_
      show responses s.popped ++ responses (s.buffer.pushEvent ev).2.entries = s.offered ↔ _
      rw [responses_pushEvent]
  | nextPop since =>
      have hheld : (s.pc t).holdsLock = true := by simp [hpc, Pc.holdsLock]
      cases hentries : s.buffer.entries with
      | nil =>
          have hpop : s.buffer.pop = (none, s.buffer.pop.2) := by simp [Buffer.pop, hentries]
          rw [hpop]
          simp only
          split
          · exact .releases t _ _ hheld (by simp [hpc, Pc.stuck]) rfl rfl rfl (fun _ => rfl)
              (by simp [Outbox.release, Outbox.goto, hentries])
          · exact .releases t _ _ hheld (by simp [hpc, Pc.stuck]) rfl rfl rfl (fun _ => rfl)
              (by simp [Outbox.release, Outbox.goto, hentries])
      | cons x rest =>
          have hpop : s.buffer.pop = (some x, s.buffer.pop.2) := by simp [Buffer.pop, hentries]
          rw [hpop]
          refine .releases t (.done (.next (some x))) _ hheld (by simp [hpc, Pc.stuck]) rfl rfl rfl
            (fun _ => rfl) ?_
          simp only [Outbox.notifyWaiters, Outbox.release, Outbox.goto, Buffer.pop_entries,
            hentries, List.tail_cons]
          rw [responses_append, List.append_assoc, ← responses_append, List.singleton_append]
  | closeSet =>
      have hheld : (s.pc t).holdsLock = true := by simp [hpc, Pc.holdsLock]
      exact .releases t .closeNotify _ hheld (by simp [hpc, Pc.stuck]) rfl rfl rfl
        (fun _ => rfl) Iff.rfl
  | _ => exact .stays _

theorem Outbox.moves_poll (t : τ) : s.Moves (.poll t) (s.next (.poll t)) := by
  -- going back to the head of the loop, or waiting
  have hgoes {p : Pc} (s' : Outbox τ) (hpc : s'.pc = Function.update s.pc t p)
      (hheld : (s.pc t).holdsLock = false)
      (hp : p.holdsLock = false) (hretries : (s.pc t).retries = false → p.retries = false)
      (hrest : s'.holder = s.holder ∧ s'.buffer = s.buffer ∧ s'.offered = s.offered ∧
      s'.popped = s.popped) : s.Moves (.poll t) s' :=
    .goes _ t p s' hpc hheld hp hretries hrest.1 hrest.2.1 hrest.2.2.1 hrest.2.2.2
  have hnotified {since : Nat} {again parked : Pc} (hheld : (s.pc t).holdsLock = false)
      (hagain : again.holdsLock = false ∧ again.retries = false)
      (hparked : parked.holdsLock = false ∧ ((s.pc t).retries = false → parked.retries = false)) :
      s.Moves (.poll t) (s.pollNotified t since again parked) := by
    unfold Outbox.pollNotified
    split
    · exact hgoes _ rfl hheld hagain.1 (fun _ => hagain.2) ⟨rfl, rfl, rfl, rfl⟩
    · split
      · exact hgoes _ rfl hheld hagain.1 (fun _ => hagain.2) ⟨rfl, rfl, rfl, rfl⟩
      · exact hgoes _ rfl hheld hparked.1 hparked.2 ⟨rfl, rfl, rfl, rfl⟩
  simp only [Outbox.next]
  cases hpc : s.pc t with
  | responseWait line since =>
      exact hnotified (by simp [hpc, Pc.holdsLock]) ⟨rfl, rfl⟩ ⟨rfl, by simp [hpc, Pc.retries]⟩
  | responseParked line =>
      simp only
      split
      · exact .stays _
      · exact hgoes _ rfl (by simp [hpc, Pc.holdsLock]) rfl (fun _ => rfl) ⟨rfl, rfl, rfl, rfl⟩
  | nextWait since => exact hnotified (by simp [hpc, Pc.holdsLock]) ⟨rfl, rfl⟩ ⟨rfl, fun _ => rfl⟩
  | nextParked =>
      simp only
      split
      · exact .stays _
      · exact hgoes _ rfl (by simp [hpc, Pc.holdsLock]) rfl (fun _ => rfl) ⟨rfl, rfl, rfl, rfl⟩
  | _ => exact .stays _

theorem Outbox.moves (l : Step τ) : s.Moves l (s.next l) := by
  cases l with
  | call t c =>
      simp only [Outbox.next]
      cases hpc : s.pc t with
      | idle =>
          cases c <;> exact .goes _ t _ _ rfl (by simp [hpc, Pc.holdsLock]) rfl (fun _ => rfl)
              rfl rfl rfl rfl
      | _ => exact .stays _
  | lock t =>
      simp only [Outbox.next]
      split
      · next hfree =>
          cases hp : (s.pc t).locked with
          | none => exact .stays _
          | some p => exact .locks t p (Option.isNone_iff_eq_none.mp hfree) hp
      · exact .stays _
  | run t => exact Outbox.moves_run t
  | notify t =>
      simp only [Outbox.next]
      cases hpc : s.pc t with
      | eventNotify accepted =>
          exact .goes _ t _ _ rfl (by simp [hpc, Pc.holdsLock]) rfl (fun _ => rfl) rfl rfl rfl rfl
      | closeNotify =>
          exact .goes _ t _ _ rfl (by simp [hpc, Pc.holdsLock]) rfl (fun _ => rfl) rfl rfl rfl rfl
      | _ => exact .stays _
  | poll t => exact Outbox.moves_poll t
  | «return» t =>
      simp only [Outbox.next]
      cases hpc : s.pc t with
      | done r =>
          exact .goes _ t _ _ rfl (by simp [hpc, Pc.holdsLock]) rfl (fun _ => rfl) rfl rfl rfl rfl
      | _ => exact .stays _
  | abort t =>
      simp only [Outbox.next]
      cases hpc : s.pc t with
      | eventLock ev =>
          exact .goes _ t _ _ rfl (by simp [hpc, Pc.holdsLock]) rfl (fun _ => rfl) rfl rfl rfl rfl
      | _ => exact .stays _

/-! ## The lock is taken and released in pairs -/

theorem locked_holds {p q : Pc} (h : p.locked = some q) : q.holdsLock = true ∧ q.stuck = false := by
  cases p <;> simp [Pc.locked] at h <;> cases h <;> exact ⟨rfl, rfl⟩

theorem locked_retries {p q : Pc} (h : p.locked = some q) (hp : p.stuck = false) :
    q.retries = false := by
  cases p <;> simp [Pc.locked, Pc.stuck] at h hp <;> cases h <;> rfl

theorem stuck_holds {p : Pc} (h : p.stuck = true) : p.holdsLock = true := by
  cases p <;> simp [Pc.stuck] at h
  rfl

theorem LockOk.step (h : LockOk s) (l : Step τ) : LockOk (s.next l) := by
  have hmoves := s.moves l
  generalize s.next l = s' at hmoves
  cases hmoves with
  | stays => exact h
  | goes _ t p s' hpc hheld hp hretries hholder =>
      refine h.update hpc (hretries (h.retries t)) ?_ fun u _ => by rw [hholder]
      rw [hholder, h.holder, hheld, hp]
  | locks t p hfree hp =>
      refine h.update rfl (locked_retries hp ?_)
        (iff_of_true rfl (locked_holds hp).1) fun u hu => ?_
      · -- a task that blocked on its own guard would still hold the lock
        refine Bool.eq_false_iff.mpr fun hstuck => ?_
        have hself := (h.holder t).mpr (stuck_holds hstuck)
        rw [hfree] at hself
        cases hself
      · rw [hfree]
        simp [Ne.symm hu]
  | blocks t line since hpc hroom =>
      have hholder := (h.holder t).mpr (by simp [hpc, Pc.holdsLock])
      exact h.update rfl rfl (iff_of_true hholder rfl) fun _ _ => Iff.rfl
  | releases t p s' hheld hstuck hp hpc hholder hretries =>
      have hself := (h.holder t).mpr hheld
      refine h.update hpc (hretries (h.retries t)) ?_ fun u hu => ?_
      · simp [hholder, hp]
      · simp [hholder, hself, Ne.symm hu]

omit [DecidableEq τ] in
theorem lockOk_new : LockOk (.new capacity : Outbox τ) where
  holder u := by simp [Outbox.new, Pc.holdsLock]
  retries u := rfl

theorem lockOk_of_reachable {ok : Outbox τ → Step τ → Prop}
    (h : (outbox τ capacity).ReachableBy ok s) : LockOk s := by
  refine h.invariant ?_ ?_
  · rintro s rfl
    exact lockOk_new
  · rintro s l _ hs - rfl
    exact hs.step l

/-! ## Safe runs -/

/-- A response that is pushed finds the buffer open and with room. -/
def FindsRoom (s : Outbox τ) (l : Step τ) : Prop :=
  ∀ t line since, l = .run t → s.pc t = .responsePush line since →
    s.buffer.closed = false ∧ s.buffer.full = false

/-- No task blocked, and the responses offered so far are those popped and, in order,
those queued. -/
structure Calm (s : Outbox τ) : Prop where
  unblocked : ∀ u, (s.pc u).stuck = false
  order : responses s.popped ++ responses s.buffer.entries = s.offered

theorem Calm.update (h : Calm s) (hpc : s'.pc = Function.update s.pc t p) (hp : p.stuck = false)
    (hresponses : responses s'.popped ++ responses s'.buffer.entries = s'.offered) : Calm s' where
  unblocked u := by
    rw [hpc]
    by_cases hu : u = t
    · rw [hu, Function.update_self, hp]
    · rw [Function.update_of_ne hu, h.unblocked]
  order := hresponses

theorem not_stuck_of_free {p : Pc} (h : p.holdsLock = false) : p.stuck = false :=
  Bool.eq_false_iff.mpr fun hstuck => by simp [stuck_holds hstuck] at h

theorem Calm.step (h : Calm s) {l : Step τ} (hroom : FindsRoom s l) : Calm (s.next l) := by
  have hmoves := s.moves l
  generalize s.next l = s' at hmoves
  cases hmoves with
  | stays => exact h
  | goes _ t p s' hpc hheld hp hretries hholder hbuffer hoffered hpopped =>
      refine h.update hpc (not_stuck_of_free hp) ?_
      rw [hbuffer, hoffered, hpopped]
      exact h.order
  | locks t p hfree hp => exact h.update rfl (locked_holds hp).2 h.order
  | blocks t line since hpc hfull =>
      obtain ⟨hopen, hnotFull⟩ := hroom t line since rfl hpc
      simp [hopen, hnotFull] at hfull
  | releases t p s' hheld hstuck hp hpc hholder hretries hresponses =>
      exact h.update hpc (not_stuck_of_free hp) (hresponses.mpr h.order)

omit [DecidableEq τ] in
theorem calm_new : Calm (.new capacity : Outbox τ) where
  unblocked _ := rfl
  order := rfl

omit [DecidableEq τ] in
/-- Only a task blocked on its own guard awaits a lock it holds. -/
theorem selfWait_stuck (h : LockOk s) (hself : SelfWait s t) : (s.pc t).stuck = true := by
  have hholds := (h.holder t).mp hself.2
  have hawaits := hself.1
  generalize s.pc t = p at hholds hawaits
  cases p <;> simp [Pc.holdsLock, Pc.awaitsLock, Pc.locked] at hholds hawaits
  rfl

/-! ## A task blocked on its own guard -/

/-- The task stays blocked, and nothing is pushed or popped any more. -/
theorem blocked_step (h : LockOk s) (hstuck : (s.pc t).stuck = true) (l : Step τ) :
    (s.next l).pc t = s.pc t ∧ (s.next l).buffer = s.buffer ∧ (s.next l).popped = s.popped := by
  have hself := (h.holder t).mpr (stuck_holds hstuck)
  have hother : ∀ u, (s.pc u).holdsLock = true → u = t := by
    intro u hu
    have hholder := (h.holder u).mpr hu
    rw [hself] at hholder
    exact (Option.some.inj hholder).symm
  have hmoves := s.moves l
  generalize hs' : s.next l = s' at hmoves
  cases hmoves with
  | stays => exact ⟨rfl, rfl, rfl⟩
  | goes _ u p s' hpc hheld hp hretries hholder hbuffer hoffered hpopped =>
      have hu : t ≠ u := by
        rintro rfl
        simp [stuck_holds hstuck] at hheld
      exact ⟨by rw [hpc, Function.update_of_ne hu], hbuffer, hpopped⟩
  | locks u p hfree hp =>
      rw [hself] at hfree
      cases hfree
  | blocks u line since hpc hroom =>
      have hu := hother u (by simp [hpc, Pc.holdsLock])
      subst hu
      simp [hpc, Pc.stuck] at hstuck
  | releases u p s' hheld hfree =>
      have hu := hother u hheld
      subst hu
      simp [hfree] at hstuck

theorem blocked_forever {ok : Outbox τ → Step τ → Prop} (h : LockOk s)
    (hstuck : (s.pc t).stuck = true) (hs : (outbox τ capacity).Steps ok s s') :
    SelfWait s' t ∧ s'.buffer = s.buffer ∧ s'.popped = s.popped := by
  have hkeeps : LockOk s' ∧ (s'.pc t).stuck = true ∧ s'.buffer = s.buffer ∧
      s'.popped = s.popped := by
    refine hs.preserves (I := fun s' => LockOk s' ∧ (s'.pc t).stuck = true ∧ s'.buffer = s.buffer ∧
      s'.popped = s.popped) ?_ ⟨h, hstuck, rfl, rfl⟩
    rintro v l _ ⟨hv, hvstuck, hbuffer, hpopped⟩ - rfl
    obtain ⟨hpc, hbuffer', hpopped'⟩ := blocked_step hv hvstuck l
    exact ⟨hv.step l, hpc ▸ hvstuck, hbuffer'.trans hbuffer, hpopped'.trans hpopped⟩
  obtain ⟨hlock, hstuck', hbuffer, hpopped⟩ := hkeeps
  refine ⟨⟨?_, (hlock.holder t).mpr (stuck_holds hstuck')⟩, hbuffer, hpopped⟩
  cases hpc : s'.pc t <;> simp [hpc, Pc.stuck] at hstuck'
  rfl

/-- A response that finds no room blocks on the guard it holds. -/
theorem response_blocks {line : String} {since : Nat} (hpc : s.pc t = .responsePush line since)
    (hroom : s.buffer.closed = true ∨ s.buffer.full = true) :
    (s.next (.run t)).pc t = .responseRelock line since ∧ (s.next (.run t)).buffer = s.buffer ∧
      (s.next (.run t)).popped = s.popped := by
  have hnot : ¬(s.buffer.closed = false ∧ s.buffer.full = false) := by
    rintro ⟨hopen, hnotFull⟩
    simp [hopen, hnotFull] at hroom
  have hpush : s.buffer.pushResponse line = .error line := dif_neg hnot
  simp [Outbox.next, Outbox.runHolder, hpc, hpush, Outbox.goto]

theorem reachable_run (h : (outbox τ capacity).Reachable s) (steps : List (Step τ)) :
    (outbox τ capacity).Reachable (s.run steps) := by
  induction steps generalizing s with
  | nil => exact h
  | cons l steps ih => exact ih (h.step trivial rfl)

/-! ## Safe exactly as long as responses find room -/

theorem outbox_safe_iff_room (capacity : Nat) :
    -- in every run in which each response finds room
    (∀ s, (outbox τ capacity).ReachableBy FindsRoom s →
      -- no task waits for the lock it holds
      (∀ t, ¬SelfWait s t) ∧
      -- every response offered is enqueued, and popped in the order offered
      responses s.popped ++ responses s.buffer.entries = s.offered ∧
      -- and no response returns false
      ∀ t, s.pc t ≠ .done (.response false)) ∧
    -- a response that finds none waits for the lock it holds, for ever, and nothing is popped any
    -- more
    ∀ s, (outbox τ capacity).Reachable s → ∀ t line since, s.pc t = .responsePush line since →
      (s.buffer.closed = true ∨ s.buffer.full = true) →
      ∀ s', (outbox τ capacity).Steps (fun _ _ => True) (s.next (.run t)) s' →
        SelfWait s' t ∧ s'.buffer = s.buffer ∧ s'.popped = s.popped := by
  refine ⟨fun s h => ?_, fun s h t line since hpc hfull s' hs => ?_⟩
  · have hlock := lockOk_of_reachable h
    have hcalm : Calm s := by
      refine h.invariant ?_ ?_
      · rintro s rfl
        exact calm_new
      · rintro s l _ hs hroom rfl
        exact hs.step hroom
    refine ⟨fun t hself => ?_, hcalm.order, fun t hpc => ?_⟩
    · exact absurd (selfWait_stuck hlock hself) (by simp [hcalm.unblocked t])
    · have hretries := hlock.retries t
      simp [hpc, Pc.retries] at hretries
  · have hlock := (lockOk_of_reachable h).step (.run t)
    obtain ⟨hpc', hbuffer, hpopped⟩ := response_blocks hpc hfull
    obtain ⟨hself, hbuffer', hpopped'⟩ := blocked_forever hlock (by rw [hpc']; rfl) hs
    exact ⟨hself, hbuffer'.trans hbuffer, hpopped'.trans hpopped⟩

/-- The reader answers a request, and the writer takes the answer. -/
def answerTaken : List (Step Bool) :=
  [.call true (.response "ok"), .lock true, .run true, .call false .next, .lock false, .run false]

theorem outbox_safe_iff_room_taken : ((Outbox.new 64).run answerTaken).popped = [.response "ok"] ∧
    ∀ t, ¬SelfWait ((Outbox.new 64).run answerTaken) t := by
  have hroom {s : Outbox Bool} (l : Step Bool) (h : s.buffer.closed = false ∧ s.buffer.full = false)
      (hs : (outbox Bool 64).ReachableBy FindsRoom s) :
      (outbox Bool 64).ReachableBy FindsRoom (s.next l) := by
    have hfinds : FindsRoom s l := fun _ _ _ _ _ => h
    exact hs.step hfinds rfl
  have hreach : (outbox Bool 64).ReachableBy FindsRoom ((Outbox.new 64).run answerTaken) := by
    simp only [answerTaken, Outbox.run, List.foldl_cons, List.foldl_nil]
    refine hroom _ (by decide) <| hroom _ (by decide) <| hroom _ (by decide) <|
      hroom _ (by decide) <| hroom _ (by decide) <| hroom _ (by decide) <| .init rfl
  exact ⟨by decide, ((outbox_safe_iff_room 64).1 _ hreach).1⟩

/-- The writer closes the outbox when its client is gone, and the reader answers a request. -/
def answerAfterClose : List (Step Bool) :=
  [ .call false .close, .lock false, .run false, .notify false,
    .call true (.response "ok"), .lock true, .run true ]

theorem response_after_close_blocks :
    (outbox Bool 64).Reachable ((Outbox.new 64).run answerAfterClose) ∧
    SelfWait ((Outbox.new 64 : Outbox Bool).run answerAfterClose) true :=
  ⟨reachable_run (System.ReachableBy.init rfl) answerAfterClose, by decide, by decide⟩

end HerdrBoard.Server
