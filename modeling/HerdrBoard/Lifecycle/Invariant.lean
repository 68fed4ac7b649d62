import HerdrBoard.Lifecycle.Basic

/-!
# The lifecycle invariant

A card without an open run has a closed status. Otherwise its one open run is the newest of its
runs, and tells which status the card has. -/

open Lib HerdrBoard.Core

namespace HerdrBoard.Lifecycle

/-! ## Rows after an event -/

namespace Life

variable {l : Life}

theorem mem_create {space : SpaceKey} {c : CardState} :
    c ∈ (l.create space).cards ↔ c ∈ l.cards ∨ c = newCard space l.cards.nextKey := by
  show c ∈ l.cards.insert (newCard space) ↔ _
  exact Table.mem_insert

theorem mem_enqueue {cardId : Int} {p : EnqueueRun} {r : Run} :
    r ∈ (l.enqueue cardId p).runs ↔ r ∈ l.runs ∨ r = queuedRun cardId p l.runs.nextKey := by
  show r ∈ l.runs.insert (queuedRun cardId p) ↔ _
  exact Table.mem_insert

theorem mem_hop {run : Run} {now : String} {outcome : RunOutcome} {summary : Option String}
    {next : EnqueueRun} {r : Run} : r ∈ (l.hop run now outcome summary next).runs ↔
      r ∈ l.endRun run.id now outcome summary ∨
        r = queuedRun run.cardId next (l.endRun run.id now outcome summary).nextKey := by
  show r ∈ (l.endRun run.id now outcome summary).insert (queuedRun run.cardId next) ↔ _
  exact Table.mem_insert

/-- The runs of `l'` are those of `l`, one of them rewritten. -/
def RewritesRun (l l' : Table Run) (run : Run) (g : Run → Run) : Prop :=
  l'.rows = l.rows.map fun s => if s.id == run.id then g s else s

variable {runs runs' : Table Run} {run r : Run} {g : Run → Run}

theorem RewritesRun.mem_iff (h : RewritesRun runs runs' run g) :
    r ∈ runs' ↔ ∃ s ∈ runs, (if s.id = run.id then g s else s) = r := by
  have hrows : runs'.rows = _ := h
  simp [Table.mem_def, hrows]

/-- The runs of the other cards are as they were. -/
theorem RewritesRun.mem_of_card_ne (h : RewritesRun runs runs' run g) (hrun : run ∈ runs)
    (hcard : ∀ s, (g s).cardId = s.cardId) (hne : r.cardId ≠ run.cardId) : r ∈ runs' ↔
      r ∈ runs := by
  have hother : ∀ s ∈ runs, s.cardId ≠ run.cardId → s.id ≠ run.id := by
    intro s hs hsc hid
    exact hsc (congrArg Run.cardId (Table.eq_of_key_eq hs hrun hid))
  rw [h.mem_iff]
  constructor
  · rintro ⟨s, hs, rfl⟩
    by_cases hid : s.id = run.id
    · rw [if_pos hid, hcard, Table.eq_of_key_eq hs hrun hid] at hne
      exact absurd rfl hne
    · rwa [if_neg hid]
  · intro hr
    exact ⟨r, hr, if_neg (hother r hr hne)⟩

/-- Every rewritten run stays with its card. -/
theorem RewritesRun.owned (h : RewritesRun runs runs' run g) (hcard : ∀ s, (g s).cardId = s.cardId)
    (hr : r ∈ runs') : ∃ s ∈ runs, r.cardId = s.cardId := by
  obtain ⟨s, hs, rfl⟩ := h.mem_iff.mp hr
  refine ⟨s, hs, ?_⟩
  split
  · exact hcard s
  · rfl

end Life

/-! ## The invariant -/

/-- What the open run of a card tells about its status. -/
structure Fits (r : Run) (s : CardStatus) : Prop where
  busy : ¬isClosedStatus s
  unstarted : r.startedAt = none ↔ s = .queued
  paused : r.timeoutPausedAtMs.isSome ↔ s = .awaiting

/-- `r` is the only open run of the card, and the newest of its runs. -/
structure Life.OpenRun (l : Life) (cardId : Int) (r : Run) : Prop where
  mem : r ∈ l.runs
  card : r.cardId = cardId
  isOpen : r.isOpen = true
  newest : ∀ s ∈ l.runs, s.cardId = cardId → s.id ≤ r.id
  unique : ∀ s ∈ l.runs, s.cardId = cardId → s.isOpen = true → s = r

structure CardOk (l : Life) (c : CardState) : Prop where
  reason : c.status = .awaiting ↔ c.awaitingReason.isSome
  phase : (l.Closed c.id ∧ isClosedStatus c.status) ∨ ∃ r, l.OpenRun c.id r ∧ Fits r c.status

structure Inv (l : Life) : Prop where
  card : ∀ c ∈ l.cards, CardOk l c
  owned : ∀ r ∈ l.runs, ∃ c ∈ l.cards, c.id = r.cardId

variable {l l' : Life}

/-- Only the runs of the card matter. -/
theorem CardOk.congr {c : CardState} (h : CardOk l c)
    (hruns : ∀ r : Run, r.cardId = c.id → (r ∈ l'.runs ↔ r ∈ l.runs)) : CardOk l' c where
  reason := h.reason
  phase := by
    rcases h.phase with ⟨hc, hs⟩ | ⟨r, hr, hfit⟩
    · exact .inl ⟨fun r hr hrc => hc r ((hruns r hrc).mp hr) hrc, hs⟩
    · exact .inr ⟨r,
        { mem := (hruns r hr.card).mpr hr.mem
          card := hr.card
          isOpen := hr.isOpen
          newest := fun s hs hsc => hr.newest s ((hruns s hsc).mp hs) hsc
          unique := fun s hs hsc => hr.unique s ((hruns s hsc).mp hs) hsc }, hfit⟩

/-- An event that touches one card and its runs leaves the others as they should be. -/
theorem Inv.touch (h : Inv l) (k : Int) (hcards : ∀ c ∈ l'.cards, c.id ≠ k → c ∈ l.cards)
    (hruns : ∀ r : Run, r.cardId ≠ k → (r ∈ l'.runs ↔ r ∈ l.runs))
    (hk : ∀ c ∈ l'.cards, c.id = k → CardOk l' c)
    (howned : ∀ r ∈ l'.runs, ∃ c ∈ l'.cards, c.id = r.cardId) : Inv l' where
  card c hc := by
    by_cases hid : c.id = k
    · exact hk c hc hid
    · exact (h.card c (hcards c hc hid)).congr fun r hr => hruns r (hr ▸ hid)
  owned := howned

/-- An event that rewrites one card. -/
theorem Inv.touchCard (h : Inv l) {k : Int} {f : CardState → CardState}
    (hcards : l'.cards.rows = l.cards.rows.map fun c => if c.id == k then f c else c)
    (hruns : ∀ r : Run, r.cardId ≠ k → (r ∈ l'.runs ↔ r ∈ l.runs))
    (hk : ∀ c ∈ l.cards, c.id = k → CardOk l' (f c))
    (howned : ∀ r ∈ l'.runs, ∃ c ∈ l.cards, c.id = r.cardId)
    (hf : ∀ c, (f c).id = c.id) : Inv l' := by
  have hmem : ∀ c, c ∈ l'.cards ↔ ∃ c₀ ∈ l.cards, (if c₀.id = k then f c₀ else c₀) = c := by
    intro c
    simp [Table.mem_def, hcards]
  refine h.touch k ?_ hruns ?_ ?_
  · intro c hc hne
    obtain ⟨c₀, hc₀, rfl⟩ := (hmem c).mp hc
    by_cases hid : c₀.id = k
    · rw [if_pos hid] at hne
      exact absurd ((hf c₀).trans hid) hne
    · rwa [if_neg hid]
  · intro c hc hid
    obtain ⟨c₀, hc₀, rfl⟩ := (hmem c).mp hc
    by_cases hid₀ : c₀.id = k
    · rw [if_pos hid₀]
      exact hk c₀ hc₀ hid₀
    · rw [if_neg hid₀] at hid
      exact absurd hid hid₀
  · intro r hr
    obtain ⟨c, hc, hid⟩ := howned r hr
    refine ⟨_, (hmem _).mpr ⟨c, hc, rfl⟩, ?_⟩
    split
    · exact (hf c).trans hid
    · exact hid

/-- The card of an open run. -/
theorem Inv.card_of_open (h : Inv l) {r : Run} (hr : r ∈ l.runs) (ho : r.isOpen = true) :
    ∃ c ∈ l.cards, c.id = r.cardId ∧ l.OpenRun c.id r ∧ Fits r c.status := by
  obtain ⟨c, hc, hid⟩ := h.owned r hr
  refine ⟨c, hc, hid, ?_⟩
  rcases (h.card c hc).phase with ⟨hclosed, _⟩ | ⟨s, hs, hfit⟩
  · rw [hclosed r hr hid.symm] at ho
    cases ho
  · rw [hs.unique r hr hid.symm ho]
    exact ⟨hs, hfit⟩

theorem Inv.openRun (h : Inv l) {r : Run} (hr : r ∈ l.runs) (ho : r.isOpen = true) :
    l.OpenRun r.cardId r := by
  obtain ⟨c, _, hid, hopen, _⟩ := h.card_of_open hr ho
  exact hid ▸ hopen

/-! ## Every event keeps it -/

theorem closed_ne_awaiting {s : CardStatus} (h : isClosedStatus s) : s ≠ .awaiting := by
  rcases h with rfl | rfl | rfl <;> decide

theorem Inv.create (h : Inv l) (space : SpaceKey) : Inv (l.create space) := by
  have hnew : ∀ r ∈ l.runs, r.cardId ≠ l.cards.nextKey := by
    intro r hr hid
    obtain ⟨c, hc, hcid⟩ := h.owned r hr
    have hlt : c.id < l.cards.nextKey := Table.lt_nextKey hc
    omega
  refine h.touch l.cards.nextKey ?_ (fun r _ => Iff.rfl) ?_ ?_
  · intro c hc hid
    rcases Life.mem_create.mp hc with hc | rfl
    · exact hc
    · exact absurd rfl hid
  · intro c hc hid
    rcases Life.mem_create.mp hc with hc | rfl
    · have hlt : c.id < l.cards.nextKey := Table.lt_nextKey hc
      omega
    · exact
        { reason := by simp [Life.newCard]
          phase := .inl ⟨fun r hr hrc => absurd hrc (hnew r hr), .inl rfl⟩ }
  · intro r hr
    obtain ⟨c, hc, hid⟩ := h.owned r hr
    exact ⟨c, Life.mem_create.mpr (.inl hc), hid⟩

theorem Inv.remove (h : Inv l) (id : Int) : Inv (l.remove id) := by
  have hcards : ∀ c ∈ (l.remove id).cards, c ∈ l.cards ∧ c.id ≠ id := by
    intro c hc
    simpa [Life.remove] using hc
  have hruns : ∀ r, r ∈ (l.remove id).runs ↔ r ∈ l.runs ∧ r.cardId ≠ id := by
    intro r
    simp [Life.remove]
  refine h.touch id (fun c hc _ => (hcards c hc).1) (fun r hr => ?_)
    (fun c hc hid => ?_) fun r hr => ?_
  · rw [hruns]
    exact and_iff_left hr
  · exact absurd hid (hcards c hc).2
  · obtain ⟨hr, hne⟩ := (hruns r).mp hr
    obtain ⟨c, hc, hid⟩ := h.owned r hr
    refine ⟨c, ?_, hid⟩
    simp [Life.remove, hc, hid, hne]

theorem Inv.respace (h : Inv l) (id : Int) (space : SpaceKey) : Inv (l.respace id space) := by
  refine h.touchCard rfl (fun r _ => Iff.rfl) (fun c hc _ => ?_) h.owned fun _ => rfl
  have hok := h.card c hc
  exact ⟨hok.reason, hok.phase.imp_right fun ⟨r, hr, hfit⟩ =>
    ⟨r, ⟨hr.1, hr.2, hr.3, hr.4, hr.5⟩, hfit⟩⟩

/-- A queued run inserted for a card without an open run is its open run. -/
theorem openRun_insert {runs : Table Run} {cardId : Int} {p : EnqueueRun}
    (hruns : ∀ r, r ∈ l'.runs ↔ r ∈ runs ∨ r = queuedRun cardId p runs.nextKey)
    (hclosed : ∀ r ∈ runs, r.cardId = cardId → r.isOpen = false) :
    l'.OpenRun cardId (queuedRun cardId p runs.nextKey) where
  mem := (hruns _).mpr (.inr rfl)
  card := rfl
  isOpen := rfl
  newest s hs _ := by
    rcases (hruns s).mp hs with hs | rfl
    · exact le_of_lt (Table.lt_nextKey hs)
    · exact le_refl _
  unique s hs hsc ho := by
    rcases (hruns s).mp hs with hs | rfl
    · rw [hclosed s hs hsc] at ho
      cases ho
    · rfl

theorem fits_queued (cardId : Int) (p : EnqueueRun) (id : Int) :
    Fits (queuedRun cardId p id) .queued where
  busy := by rintro (h | h | h) <;> cases h
  unstarted := by simp [queuedRun]
  paused := by simp [queuedRun]

theorem Inv.enqueue (h : Inv l) (cardId : Int) (p : EnqueueRun) (hclosed : l.Closed cardId)
    (hcard : (l.cards.find? cardId).isSome) : Inv (l.enqueue cardId p) := by
  refine h.touchCard rfl ?_ ?_ ?_ fun _ => rfl
  · intro r hr
    refine Life.mem_enqueue.trans (or_iff_left ?_)
    rintro rfl
    exact hr rfl
  · rintro c hc rfl
    exact
      { reason := by simp
        phase := .inr ⟨_, openRun_insert (fun r => Life.mem_enqueue) hclosed,
          fits_queued c.id p _⟩ }
  · intro r hr
    rcases Life.mem_enqueue.mp hr with hr | rfl
    · exact h.owned r hr
    · exact Table.mem_keys.mp (Table.find?_isSome_iff.mp hcard)

/-- Rewriting the open run of a card, without ending it, leaves it the open run. -/
theorem Life.OpenRun.rewrite {cardId : Int} {run : Run} (h : l.OpenRun cardId run) {g : Run → Run}
    (hruns : Life.RewritesRun l.runs l'.runs run g) (hid : (g run).id = run.id)
    (hcard : (g run).cardId = run.cardId) (hopen : (g run).isOpen = run.isOpen) :
    l'.OpenRun cardId (g run) := by
  have hrow : ∀ s ∈ l'.runs, s = g run ∨ s ∈ l.runs ∧ s ≠ run := by
    intro s hs
    obtain ⟨s₀, hs₀, rfl⟩ := hruns.mem_iff.mp hs
    by_cases heq : s₀.id = run.id
    · rw [if_pos heq, Table.eq_of_key_eq hs₀ h.mem heq]
      exact .inl rfl
    · rw [if_neg heq]
      exact .inr ⟨hs₀, fun hr => heq (congrArg Run.id hr)⟩
  exact
    { mem := hruns.mem_iff.mpr ⟨run, h.mem, if_pos rfl⟩
      card := hcard.trans h.card
      isOpen := hopen.trans h.isOpen
      newest := by
        intro s hs hsc
        rcases hrow s hs with rfl | ⟨hs, _⟩
        · exact le_refl _
        · exact hid ▸ h.newest s hs hsc
      unique := by
        intro s hs hsc ho
        rcases hrow s hs with rfl | ⟨hs, hne⟩
        · rfl
        · exact absurd (h.unique s hs hsc ho) hne }

/-- An event that rewrites one card and its open run. -/
theorem Inv.touchRun (h : Inv l) {run : Run} (hrun : run ∈ l.runs) {f : CardState → CardState}
    {g : Run → Run}
    (hcards : l'.cards.rows = l.cards.rows.map fun c => if c.id == run.cardId then f c else c)
    (hruns : Life.RewritesRun l.runs l'.runs run g)
    (hk : ∀ c ∈ l.cards, c.id = run.cardId → CardOk l' (f c))
    (hf : ∀ c, (f c).id = c.id) (hg : ∀ s, (g s).cardId = s.cardId) : Inv l' := by
  refine h.touchCard hcards (fun r hr => hruns.mem_of_card_ne hrun hg hr) hk (fun r hr => ?_) hf
  obtain ⟨s, hs, hc⟩ := hruns.owned hg hr
  exact hc ▸ h.owned s hs

theorem Inv.promote (h : Inv l) {run : Run} (a : Life.Launch) (hrun : run ∈ l.runs)
    (hqueued : run.isQueued = true) : Inv (l.promote run a) := by
  have ho : run.isOpen = true := by
    simp only [Run.isQueued, Bool.and_eq_true] at hqueued
    exact hqueued.2
  refine h.touchRun (g := a.start) hrun rfl rfl (fun c _ hid => ?_) (fun _ => rfl) fun _ => rfl
  exact
    { reason := by simp
      phase := .inr ⟨a.start run, hid ▸ (h.openRun hrun ho).rewrite rfl rfl rfl rfl,
        { busy := by rintro (h | h | h) <;> cases h
          unstarted := by simp [Life.Launch.start]
          paused := by simp [Life.Launch.start] }⟩ }

theorem Inv.signal (h : Inv l) {run : Run} {status : CardStatus} {reason : Option AwaitingReason}
    {deadline paused : Option Int} (hrun : run ∈ l.runs) (hactive : run.isActive = true)
    (hstatus : isActiveStatus status) (hreason : status = .awaiting ↔ reason.isSome)
    (hpaused : status = .awaiting ↔ paused.isSome) :
    Inv (l.signal run status reason deadline paused) := by
  obtain ⟨hstarted, ho⟩ : run.startedAt.isSome = true ∧ run.isOpen = true := by
    simpa [Run.isActive, Run.isOpen] using hactive
  refine h.touchRun hrun rfl rfl (fun c _ hid => ?_) (fun _ => rfl) fun _ => rfl
  have hopen : (l.signal run status reason deadline paused).OpenRun run.cardId _ :=
    (h.openRun hrun ho).rewrite rfl rfl rfl rfl
  rw [← hid] at hopen
  refine
    { reason := hreason
      phase := .inr ⟨_, hopen,
        { busy := ?_
          unstarted := ?_
          paused := hpaused.symm }⟩ }
  · rcases hstatus with rfl | rfl | rfl <;> rintro (h | h | h) <;> cases h
  · constructor
    · intro hnone
      rw [hnone] at hstarted
      cases hstarted
    · intro hq
      rcases hstatus with hs | hs | hs <;> rw [hs] at hq <;> cases hq

theorem rewrites_endRun (run : Run) (now : String) (outcome : RunOutcome)
    (summary : Option String) :
    Life.RewritesRun l.runs (l.endRun run.id now outcome summary) run fun r =>
      { r with endedAt := some now, outcome := some outcome, resultSummary := summary } := rfl

/-- Ending the open run of a card leaves it without one. -/
theorem Inv.closed_endRun (h : Inv l) {run : Run} (hrun : run ∈ l.runs) (ho : run.isOpen = true)
    {now : String} {outcome : RunOutcome} {summary : Option String} :
    ∀ r ∈ l.endRun run.id now outcome summary, r.cardId = run.cardId → r.isOpen = false := by
  intro r hr hrc
  obtain ⟨s, hs, rfl⟩ := (rewrites_endRun run now outcome summary).mem_iff.mp hr
  by_cases hid : s.id = run.id
  · rw [if_pos hid]
    rfl
  · rw [if_neg hid] at hrc ⊢
    cases hso : s.isOpen with
    | false => rfl
    | true => exact absurd (congrArg Run.id ((h.openRun hrun ho).unique s hs hrc hso)) hid

theorem Inv.finish (h : Inv l) {run : Run} {now : String} {outcome : RunOutcome}
    {summary : Option String} {status : CardStatus} (hrun : run ∈ l.runs) (ho : run.isOpen = true)
    (hstatus : isClosedStatus status) : Inv (l.finish run now outcome summary status) := by
  refine h.touchRun hrun rfl (rewrites_endRun run now outcome summary) (fun c _ hid => ?_)
    (fun _ => rfl) fun _ => rfl
  exact
    { reason := by simpa using closed_ne_awaiting hstatus
      phase := .inl ⟨hid ▸ h.closed_endRun hrun ho, hstatus⟩ }

theorem Inv.hop (h : Inv l) {run : Run} {now : String} {outcome : RunOutcome}
    {summary : Option String} {next : EnqueueRun} (hrun : run ∈ l.runs) (ho : run.isOpen = true) :
    Inv (l.hop run now outcome summary next) := by
  have hend := rewrites_endRun (l := l) run now outcome summary
  refine h.touchCard rfl ?_ ?_ ?_ fun _ => rfl
  · intro r hr
    refine (Life.mem_hop.trans (or_iff_left ?_)).trans (hend.mem_of_card_ne hrun (fun _ => rfl) hr)
    rintro rfl
    exact hr rfl
  · intro c hc hid
    have hopen : (l.hop run now outcome summary next).OpenRun run.cardId _ :=
      openRun_insert (fun r => Life.mem_hop) (h.closed_endRun hrun ho)
    rw [← hid] at hopen
    exact
      { reason := by simp
        phase := .inr ⟨_, hopen, fits_queued c.id next _⟩ }
  · intro r hr
    rcases Life.mem_hop.mp hr with hr | rfl
    · obtain ⟨s, hs, hc⟩ := hend.owned (fun _ => rfl) hr
      exact hc ▸ h.owned s hs
    · exact h.owned run hrun

theorem Step.inv {e : Event} (hs : Step l e l') (h : Inv l) : Inv l' := by
  cases hs with
  | create space => exact h.create space
  | remove id _ => exact h.remove id
  | respace id space _ => exact h.respace id space
  | enqueue cardId p hclosed hcard => exact h.enqueue cardId p hclosed hcard
  | promote run a hrun hqueued => exact h.promote a hrun hqueued
  | signal run status reason deadline paused hrun hactive hstatus hreason hpaused =>
      exact h.signal hrun hactive hstatus hreason hpaused
  | finish run now outcome summary status hrun hopen hstatus => exact h.finish hrun hopen hstatus
  | hop run now outcome summary next hrun hopen => exact h.hop hrun hopen

theorem Inv.steps {ok : Life → Event → Prop} (h : Inv l) (hs : lifecycle.Steps ok l l') :
    Inv l' := by
  refine hs.preserves ?_ h
  intro s e t hi _ hstep
  have hst : Step s e t := hstep
  exact hst.inv hi

end HerdrBoard.Lifecycle
