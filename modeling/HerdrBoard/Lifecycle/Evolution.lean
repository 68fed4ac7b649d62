import HerdrBoard.Lifecycle.Invariant

/-!
# Where rows come from

Each run and each card after an event is a new one, or an old one that the event rewrote in
a known way. -/

open Lib HerdrBoard.Core

namespace HerdrBoard.Lifecycle

/-- A run after it ended. -/
def endedRun (r : Run) (now : String) (outcome : RunOutcome) (summary : Option String) : Run :=
  { r with endedAt := some now, outcome := some outcome, resultSummary := summary }

/-- A run with other timeout instants. -/
def setTimeout (r : Run) (deadline paused : Option Int) : Run :=
  { r with timeoutDeadlineAtMs := deadline, timeoutPausedAtMs := paused }

/-- What an event may do to a run. -/
inductive RunEvolves : Event → Run → Run → Prop
  | same (e : Event) (r : Run) : RunEvolves e r r
  | promote (r : Run) (a : Life.Launch) (hqueued : r.isQueued = true) :
      RunEvolves (.promote r.id a) r (a.start r)
  | signal (r : Run) (deadline paused : Option Int) (hactive : r.isActive = true) :
      RunEvolves (.signal r.id) r (setTimeout r deadline paused)
  | finish (r : Run) (now : String) (outcome : RunOutcome) (summary : Option String)
      (hopen : r.isOpen = true) : RunEvolves (.finish r.id) r (endedRun r now outcome summary)
  | hop (r : Run) (next : EnqueueRun) (now : String) (outcome : RunOutcome)
      (summary : Option String)
      (hopen : r.isOpen = true) : RunEvolves (.hop r.id next) r (endedRun r now outcome summary)

/-- The run an event inserts for a card. -/
inductive Inserts (l : Life) : Event → Run → Prop
  | enqueue (cardId : Int) (p : EnqueueRun) (hclosed : l.Closed cardId) :
      Inserts l (.enqueue cardId p) (queuedRun cardId p l.runs.nextKey)
  | hop (run : Run) (p : EnqueueRun) (hrun : run ∈ l.runs) (hopen : run.isOpen = true) :
      Inserts l (.hop run.id p) (queuedRun run.cardId p l.runs.nextKey)

variable {l l' : Life} {e : Event}

/-- Rewriting runs does not move the next id. -/
theorem nextKey_of_map {runs runs' : Table Run} {g : Run → Run} (h : runs'.rows = runs.rows.map g)
    (hg : ∀ r, (g r).id = r.id) : runs'.nextKey = runs.nextKey := by
  simp only [Table.nextKey, h, List.getLast?_map]
  cases runs.rows.getLast? with
  | none => rfl
  | some r => simp only [Option.map_some, key_run, hg]

theorem nextKey_rewrite {runs runs' : Table Run} {run : Run} {g : Run → Run}
    (h : Life.RewritesRun runs runs' run g) (hg : ∀ r, (g r).id = r.id) :
    runs'.nextKey = runs.nextKey := by
  refine nextKey_of_map h fun r => ?_
  split
  · exact hg r
  · rfl

@[simp] theorem nextKey_endRun (runId : Int) (now : String) (outcome : RunOutcome)
    (summary : Option String) : (l.endRun runId now outcome summary).nextKey = l.runs.nextKey := by
  have hrows : (l.endRun runId now outcome summary).rows = l.runs.rows.map fun r =>
      if r.id == runId then endedRun r now outcome summary else r := rfl
  refine nextKey_of_map hrows fun r => ?_
  split <;> rfl

theorem isOpen_iff {r : Run} : r.isOpen = true ↔ r.endedAt = none := by
  simp [Run.isOpen, Option.isNone_iff_eq_none]

theorem isOpen_of_isActive {r : Run} (h : r.isActive = true) : r.isOpen = true := by
  simp only [Run.isActive, Bool.and_eq_true] at h
  exact h.2

theorem isOpen_of_isQueued {r : Run} (h : r.isQueued = true) : r.isOpen = true := by
  simp only [Run.isQueued, Bool.and_eq_true] at h
  exact h.2

theorem RunEvolves.key {r r' : Run} (h : RunEvolves e r r') : r'.id = r.id := by cases h <;> rfl

theorem RunEvolves.cardId {r r' : Run} (h : RunEvolves e r r') : r'.cardId = r.cardId := by
  cases h <;> rfl

theorem rewrites_promote (run : Run) (a : Life.Launch) :
    Life.RewritesRun l.runs (l.promote run a).runs run a.start := rfl

theorem rewrites_signal (run : Run) (status : CardStatus) (reason : Option AwaitingReason)
    (deadline paused : Option Int) :
    Life.RewritesRun l.runs (l.signal run status reason deadline paused).runs run fun r =>
      setTimeout r deadline paused := rfl

theorem rewrites_finish (run : Run) (now : String) (outcome : RunOutcome) (summary : Option String)
    (status : CardStatus) :
    Life.RewritesRun l.runs (l.finish run now outcome summary status).runs run fun r =>
      endedRun r now outcome summary := rfl

/-- One run rewritten. -/
theorem evolves_of_rewrites {runs runs' : Table Run} {run : Run} {g : Run → Run}
    (h : Life.RewritesRun runs runs' run g) (hrun : run ∈ runs)
    (hg : RunEvolves e run (g run)) {r' : Run} :
    (r' ∈ runs' → ∃ r ∈ runs, RunEvolves e r r') ∧
      (r' ∈ runs → ∃ r ∈ runs', RunEvolves e r' r) := by
  constructor
  · intro hr'
    obtain ⟨r, hr, rfl⟩ := h.mem_iff.mp hr'
    by_cases hid : r.id = run.id
    · rw [if_pos hid, Table.eq_of_key_eq hr hrun hid]
      exact ⟨run, hrun, hg⟩
    · rw [if_neg hid]
      exact ⟨r, hr, .same e r⟩
  · intro hr'
    by_cases hid : r'.id = run.id
    · have heq := Table.eq_of_key_eq hr' hrun hid
      exact ⟨g run, h.mem_iff.mpr ⟨run, hrun, if_pos rfl⟩, heq ▸ hg⟩
    · exact ⟨r', h.mem_iff.mpr ⟨r', hr', if_neg hid⟩, .same e r'⟩

/-- A run after an event is the inserted one, or an old one as the event left it. -/
theorem Step.run_back (h : Step l e l') {r' : Run} (hr' : r' ∈ l'.runs) :
    (∃ r ∈ l.runs, RunEvolves e r r') ∨ Inserts l e r' := by
  cases h with
  | create space => exact .inl ⟨r', hr', .same _ r'⟩
  | remove id hclosed =>
      have hin : r' ∈ l.runs := by
        have := Table.mem_delete.mp (show r' ∈ l.runs.delete _ from hr')
        exact this.1
      exact .inl ⟨r', hin, .same _ r'⟩
  | respace id space hclosed => exact .inl ⟨r', hr', .same _ r'⟩
  | enqueue cardId p hclosed hcard =>
      rcases Life.mem_enqueue.mp hr' with hr | rfl
      · exact .inl ⟨r', hr, .same _ r'⟩
      · exact .inr (.enqueue cardId p hclosed)
  | promote run a hrun hqueued =>
      exact .inl ((evolves_of_rewrites (rewrites_promote run a) hrun (.promote run a hqueued)).1
        hr')
  | signal run status reason deadline paused hrun hactive hstatus hreason hpaused =>
      exact .inl ((evolves_of_rewrites (rewrites_signal run status reason deadline paused) hrun
        (.signal run deadline paused hactive)).1 hr')
  | finish run now outcome summary status hrun hopen hstatus =>
      exact .inl ((evolves_of_rewrites (rewrites_finish run now outcome summary status) hrun
        (.finish run now outcome summary hopen)).1 hr')
  | hop run now outcome summary next hrun hopen =>
      rcases Life.mem_hop.mp hr' with hr | rfl
      · exact .inl ((evolves_of_rewrites
          (rewrites_endRun run now outcome summary) hrun
            (.hop run next now outcome summary hopen)).1 hr)
      · rw [nextKey_endRun]
        exact .inr (.hop run next hrun hopen)

/-- A run is still there after an event that does not delete its card. -/
theorem Step.run_forth (h : Step l e l') {r : Run} (hr : r ∈ l.runs)
    (hkeep : e ≠ .remove r.cardId) : ∃ r' ∈ l'.runs, RunEvolves e r r' := by
  cases h with
  | create space => exact ⟨r, hr, .same _ r⟩
  | remove id hclosed =>
      have hne : r.cardId ≠ id := fun hid => hkeep (by rw [hid])
      exact ⟨r, Table.mem_delete.mpr ⟨hr, by simpa using hne⟩, .same _ r⟩
  | respace id space hclosed => exact ⟨r, hr, .same _ r⟩
  | enqueue cardId p hclosed hcard => exact ⟨r, Life.mem_enqueue.mpr (.inl hr), .same _ r⟩
  | promote run a hrun hqueued =>
      exact (evolves_of_rewrites (rewrites_promote run a) hrun (.promote run a hqueued)).2 hr
  | signal run status reason deadline paused hrun hactive hstatus hreason hpaused =>
      exact (evolves_of_rewrites (rewrites_signal run status reason deadline paused) hrun
        (.signal run deadline paused hactive)).2 hr
  | finish run now outcome summary status hrun hopen hstatus =>
      exact (evolves_of_rewrites (rewrites_finish run now outcome summary status) hrun
        (.finish run now outcome summary hopen)).2 hr
  | hop run now outcome summary next hrun hopen =>
      obtain ⟨r', hr', hev⟩ := (evolves_of_rewrites
        (rewrites_endRun run now outcome summary) hrun (.hop run next now outcome summary hopen)).2
          hr
      exact ⟨r', Life.mem_hop.mpr (.inl hr'), hev⟩

/-- An ended run does not change any more. -/
theorem Step.keeps_ended (h : Step l e l') {r : Run} (hr : r ∈ l.runs) (hend : r.isOpen = false)
    (hkeep : e ≠ .remove r.cardId) : r ∈ l'.runs := by
  obtain ⟨r', hr', hev⟩ := h.run_forth hr hkeep
  cases hev with
  | same => exact hr'
  | promote _ a hqueued => exact absurd (isOpen_of_isQueued hqueued) (by simp [hend])
  | signal _ deadline paused hactive => exact absurd (isOpen_of_isActive hactive) (by simp [hend])
  | finish _ now outcome summary hopen => exact absurd hopen (by simp [hend])
  | hop _ next now outcome summary hopen => exact absurd hopen (by simp [hend])

/-! ## Cards -/

/-- A card among those of which one was rewritten. -/
theorem card_of_rewrite {id : Int} {f : CardState → CardState}
    (hrows : l'.cards.rows = l.cards.rows.map fun c => if c.id == id then f c else c)
    {c' : CardState}
    (hc' : c' ∈ l'.cards) : ∃ c ∈ l.cards, (if c.id = id then f c else c) = c' := by
  simpa [Table.mem_def, hrows] using hc'

/-- A card after an event is new, or an old one; it keeps its space, unless it had no open run. -/
theorem Step.card_back (h : Step l e l') {c' : CardState} (hc' : c' ∈ l'.cards) :
    (∃ c ∈ l.cards, c.id = c'.id ∧ (c.space = c'.space ∨ l.Closed c.id)) ∨
      c'.id = l.cards.nextKey := by
  -- an event that rewrites one card without its space
  have hrewritten {id : Int} {f : CardState → CardState}
      (hrows : l'.cards.rows = l.cards.rows.map fun c => if c.id == id then f c else c)
      (hf : ∀ c, (f c).id = c.id ∧ (f c).space = c.space) :
      ∃ c ∈ l.cards, c.id = c'.id ∧ (c.space = c'.space ∨ l.Closed c.id) := by
    obtain ⟨c, hc, rfl⟩ := card_of_rewrite hrows hc'
    refine ⟨c, hc, ?_⟩
    split
    · exact ⟨(hf c).1.symm, .inl (hf c).2.symm⟩
    · exact ⟨rfl, .inl rfl⟩
  cases h with
  | create space =>
      rcases Life.mem_create.mp hc' with hc | rfl
      · exact .inl ⟨c', hc, rfl, .inl rfl⟩
      · exact .inr rfl
  | remove id hclosed =>
      have hc := (Table.mem_delete.mp (show c' ∈ l.cards.delete _ from hc')).1
      exact .inl ⟨c', hc, rfl, .inl rfl⟩
  | respace id space hclosed =>
      obtain ⟨c, hc, rfl⟩ := @card_of_rewrite l (l.respace id space) _ _ rfl _ hc'
      refine .inl ⟨c, hc, ?_⟩
      split
      · next hid => exact ⟨rfl, .inr (hid ▸ hclosed)⟩
      · exact ⟨rfl, .inl rfl⟩
  | enqueue cardId p hclosed hcard => exact .inl (hrewritten rfl fun _ => ⟨rfl, rfl⟩)
  | promote run a hrun hqueued => exact .inl (hrewritten rfl fun _ => ⟨rfl, rfl⟩)
  | signal run status reason deadline paused hrun hactive hstatus hreason hpaused =>
      exact .inl (hrewritten rfl fun _ => ⟨rfl, rfl⟩)
  | finish run now outcome summary status hrun hopen hstatus =>
      exact .inl (hrewritten rfl fun _ => ⟨rfl, rfl⟩)
  | hop run now outcome summary next hrun hopen => exact .inl (hrewritten rfl fun _ => ⟨rfl, rfl⟩)

/-- Without deletions the next run id does not go back. -/
theorem Step.nextKey_le (h : Step l e l') (hkeep : ∀ id, e ≠ .remove id) :
    l.runs.nextKey ≤ l'.runs.nextKey := by
  cases h with
  | create space => exact le_refl _
  | remove id hclosed => exact absurd rfl (hkeep id)
  | respace id space hclosed => exact le_refl _
  | enqueue cardId p hclosed hcard =>
      have hnew : queuedRun cardId p l.runs.nextKey ∈ (l.enqueue cardId p).runs :=
        Life.mem_enqueue.mpr (.inr rfl)
      exact (Table.lt_nextKey hnew).le
  | promote run a hrun hqueued => exact (nextKey_rewrite (rewrites_promote run a) fun _ => rfl).ge
  | signal run status reason deadline paused hrun hactive hstatus hreason hpaused =>
      exact (nextKey_rewrite (rewrites_signal run status reason deadline paused) fun _ => rfl).ge
  | finish run now outcome summary status hrun hopen hstatus => exact (nextKey_endRun ..).ge
  | hop run now outcome summary next hrun hopen =>
      have hnew : queuedRun run.cardId next (l.endRun run.id now outcome summary).nextKey ∈
          (l.hop run now outcome summary next).runs := Life.mem_hop.mpr (.inr rfl)
      rw [← nextKey_endRun run.id now outcome summary]
      exact (Table.lt_nextKey hnew).le

end HerdrBoard.Lifecycle
