import HerdrBoard.Core.Operations
import HerdrBoard.Lifecycle.Threads
import HerdrBoard.Lifecycle.Units

/-!
# The store keeps conversations

Every call of the store is a sequence of exchanges, but for an auto hop that starts another
conversation. -/

open Lib HerdrBoard.Core Relation

namespace HerdrBoard.Lifecycle

open Threads

variable {conn : Conn} {db db' : Db} {l l' : Life} {e : Event}

/-! ## The conversations of the lifecycle -/

def topicOf (c : CardState) : Topic where
  id := c.id
  sessionId := c.sessionId

def threadOf (r : Run) : Thread where
  id := r.id
  cardId := r.cardId
  sessionId := r.sessionId
  isOpen := r.isOpen

theorem key_topicOf (c : CardState) : Keyed.key (topicOf c) = Keyed.key c := rfl

theorem key_threadOf (r : Run) : Keyed.key (threadOf r) = Keyed.key r := rfl

def threads (l : Life) : Threads where
  cards := l.cards.map topicOf key_topicOf
  runs := l.runs.map threadOf key_threadOf

theorem mem_topics {c : Topic} : c ∈ (threads l).cards ↔ ∃ c₀ ∈ l.cards, topicOf c₀ = c := by
  show c ∈ l.cards.map topicOf key_topicOf ↔ _
  exact Table.mem_map

theorem mem_threads {r : Thread} : r ∈ (threads l).runs ↔ ∃ run ∈ l.runs, threadOf run = r := by
  show r ∈ l.runs.map threadOf key_threadOf ↔ _
  exact Table.mem_map

@[simp] theorem nextKey_topics : (threads l).cards.nextKey = l.cards.nextKey := by
  show (l.cards.map topicOf key_topicOf).nextKey = _
  exact Table.nextKey_map

@[simp] theorem nextKey_threads : (threads l).runs.nextKey = l.runs.nextKey := by
  show (l.runs.map threadOf key_threadOf).nextKey = _
  exact Table.nextKey_map

@[simp] theorem rows_topics : (threads l).cards.rows = l.cards.rows.map topicOf := rfl

@[simp] theorem rows_threads : (threads l).runs.rows = l.runs.rows.map threadOf := rfl

theorem threads_eq {s : Threads} (hcards : l.cards.rows.map topicOf = s.cards.rows)
    (hruns : l.runs.rows.map threadOf = s.runs.rows) : threads l = s := by
  obtain ⟨cards, runs⟩ := s
  exact congr (congrArg Threads.mk (Table.ext hcards)) (Table.ext hruns)

/-- One row rewritten, seen through `g`. -/
theorem map_rewrite {α β : Type} {rows : List α} {p : α → Bool} {f : α → α} {g : α → β}
    {p' : β → Bool} {f' : β → β} (hp : ∀ a, p' (g a) = p a) (hf : ∀ a, g (f a) = f' (g a)) :
    (rows.map fun a => if p a then f a else a).map g = (rows.map g).map fun b =>
      if p' b then f' b else b := by
  simp only [List.map_map]
  refine List.map_congr_left fun a _ => ?_
  simp only [Function.comp_apply, hp]
  split
  · exact hf a
  · rfl

theorem map_rewrite_self {α β : Type} {rows : List α} {p : α → Bool} {f : α → α} {g : α → β}
    (hf : ∀ a, g (f a) = g a) : (rows.map fun a => if p a then f a else a).map g = rows.map g := by
  simp only [List.map_map]
  refine List.map_congr_left fun a _ => ?_
  simp only [Function.comp_apply]
  split
  · exact hf a
  · rfl

theorem rows_insert {ρ : Type} [Keyed ρ] (t : Table ρ) (row : Int → ρ)
    (hkey : ∀ k, Keyed.key (row k) = k) :
    (t.insert row hkey).rows = t.rows ++ [row t.nextKey] := rfl

theorem threads_create (space : SpaceKey) : threads (l.create space) = (threads l).create := by
  refine threads_eq ?_ rfl
  simp only [Life.create, Threads.create, rows_insert, List.map_append, List.map_singleton,
    rows_topics, nextKey_topics]
  rfl

theorem threads_remove (cardId : Int) : threads (l.remove cardId) = (threads l).remove cardId := by
  refine threads_eq ?_ ?_
  · simp only [Life.remove, Threads.remove, Table.delete, rows_topics, List.filter_map]
    rfl
  · simp only [Life.remove, Threads.remove, Table.delete, rows_threads, List.filter_map]
    rfl

theorem threads_respace (cardId : Int) (space : SpaceKey) :
    threads (l.respace cardId space) = threads l :=
  threads_eq (map_rewrite_self fun _ => rfl) rfl

theorem threads_enqueue (cardId : Int) (p : EnqueueRun) :
    threads (l.enqueue cardId p) = (threads l).queue cardId p.sessionId := by
  refine threads_eq (map_rewrite (fun _ => rfl) fun _ => rfl) ?_
  simp only [Life.enqueue, Threads.queue, rows_insert, List.map_append, List.map_singleton,
    rows_threads, nextKey_threads]
  rfl

theorem threads_promote (run : Run) (a : Life.Launch) :
    threads (l.promote run a) = (threads l).capture (threadOf run) a.captured :=
  threads_eq (map_rewrite (fun _ => rfl) fun _ => rfl) (map_rewrite (fun _ => rfl) fun _ => rfl)

theorem threads_signal (run : Run) (status : CardStatus) (reason : Option AwaitingReason)
    (deadline paused : Option Int) :
    threads (l.signal run status reason deadline paused) = threads l :=
  threads_eq (map_rewrite_self fun _ => rfl) (map_rewrite_self fun _ => rfl)

theorem threads_finish (run : Run) (now : String) (outcome : RunOutcome) (summary : Option String)
    (status : CardStatus) :
    threads (l.finish run now outcome summary status) = (threads l).close run.id :=
  threads_eq (map_rewrite_self fun _ => rfl) (map_rewrite (fun _ => rfl) fun _ => rfl)

theorem closed_threads {cardId : Int} (h : l.Closed cardId) :
    ∀ r ∈ (threads l).runs, r.cardId = cardId → r.isOpen = false := by
  intro r hr hcard
  obtain ⟨run, hrun, rfl⟩ := mem_threads.mp hr
  exact h run hrun hcard

theorem exists_topic {id : Int} (h : (l.cards.find? id).isSome) :
    ∃ c ∈ (threads l).cards, c.id = id := by
  obtain ⟨c, hc⟩ := Option.isSome_iff_exists.mp h
  exact ⟨topicOf c, mem_topics.mpr ⟨c, Table.mem_of_find? hc, rfl⟩, Table.key_of_find? hc⟩

/-- An event is an exchange, or no matter of conversations. -/
theorem Step.exchanges (h : Step l e l') (hhop : ∀ id next, e ≠ .hop id next) :
    ReflTransGen Exchange (threads l) (threads l') := by
  cases h with
  | create space =>
      rw [threads_create]
      exact .single .create
  | remove id _ =>
      rw [threads_remove]
      exact .single (.remove id)
  | respace id space _ => rw [threads_respace]
  | enqueue cardId p hclosed hcard =>
      rw [threads_enqueue]
      exact .single (.queue cardId p.sessionId (exists_topic hcard) (closed_threads hclosed))
  | promote run a hrun hqueued =>
      rw [threads_promote]
      exact .single (.capture _ a.captured (mem_threads.mpr ⟨run, hrun, rfl⟩)
        (isOpen_of_isQueued hqueued))
  | signal run status reason deadline paused _ _ _ _ _ => rw [threads_signal]
  | finish run now outcome summary status _ _ _ =>
      rw [threads_finish]
      exact .single (.close run.id)
  | hop run now outcome summary next _ _ => exact absurd rfl (hhop run.id next)

/-! ## The conversations of the store -/

def Tables.threads (t : Tables) : Threads := Lifecycle.threads (life t)

/-- The conversations changed by exchanges. -/
def Talks (db db' : Db) : Prop :=
  ReflTransGen Exchange (Tables.threads db.toTables) (Tables.threads db'.toTables)

instance : Std.Refl Talks := ⟨fun _ => .refl⟩

instance : IsTrans Db Talks := ⟨fun _ _ _ h h' => h.trans h'⟩

theorem Talks.follows (h : Talks db db') (hf : (Tables.threads db.toTables).Follows) :
    (Tables.threads db'.toTables).Follows :=
  follows_of_exchanges h hf

/-- Any event but a hop. -/
def NoHop (e : Event) : Prop := ∀ id next, e ≠ .hop id next

theorem Via.talks (h : Via NoHop db db') : Talks db db' := by
  refine Lib.System.Steps.preserves
    (I := fun l => ReflTransGen Exchange (Tables.threads db.toTables)
      (Lifecycle.threads l)) ?_ h .refl
  intro s e t hs he hst
  have hstep : Step s e t := hst
  exact hs.trans (hstep.exchanges he)

theorem respects_talks {α : Type} {x : StoreM α} (h : Respects (Via NoHop) x) :
    Respects Talks x := fun db => (h db).talks

theorem talks_of_eq (h : Tables.threads db'.toTables = Tables.threads db.toTables) :
    Talks db db' := by
  show ReflTransGen Exchange _ _
  rw [h]

theorem talks_of_keeps {α : Type} {x : StoreM α} (h : KeepsTables life x) : Respects Talks x :=
  h.mono fun _ _ hst => talks_of_eq (congrArg Lifecycle.threads hst)

theorem talks_of_keepsThreads {α : Type} {x : StoreM α} (h : KeepsTables Tables.threads x) :
    Respects Talks x :=
  h.mono fun _ _ hst => talks_of_eq hst

theorem map_topics (cards : Table Card) :
    (cardStates cards).rows.map topicOf = cards.rows.map (topicOf ∘ cardState) :=
  List.map_map

/-- One card rewritten, as its conversation shows it. -/
theorem topics_update {cards cards' : Table Card} {id : Int} {f : Card → Card} {g : Topic → Topic}
    (h : cards'.rows = cards.rows.map fun c => if c.id == id then f c else c)
    (hf : ∀ c ∈ cards, c.id = id → topicOf (cardState (f c)) = g (topicOf (cardState c))) :
    (cardStates cards').rows.map topicOf =
      ((cardStates cards).rows.map topicOf).map fun c => if c.id == id then g c else c := by
  rw [map_topics, map_topics, h, List.map_map, List.map_map]
  refine List.map_congr_left fun c hc => ?_
  by_cases hid : c.id = id
  · simpa [hid, topicOf] using hf c hc hid
  · simp [hid, topicOf]

theorem keeps_threads_updateCards {p : Card → Bool} {f : Card → Card} {hkey}
    (hf : ∀ c, topicOf (cardState (f c)) = topicOf (cardState c)) :
    KeepsTables Tables.threads (updateCards p f hkey) := by
  refine keeps_updateCards fun t => threads_eq ?_ rfl
  show (cardStates (t.cards.update p f hkey)).rows.map topicOf =
      (cardStates t.cards).rows.map topicOf
  rw [map_topics, map_topics]
  exact map_rewrite_self (g := topicOf ∘ cardState) hf

theorem keeps_threads_updateRuns {p : Run → Bool} {f : Run → Run} {hkey}
    (hf : ∀ r, threadOf (f r) = threadOf r) : KeepsTables Tables.threads (updateRuns p f hkey) :=
  keeps_exec fun _ => threads_eq rfl (map_rewrite_self hf)

/-! ## Calls -/

theorem talks_updateCard (p : CardUpdateParams) : Respects Talks (updateCard conn p) := by
  refine (readOnly_requireCard _).respects.bind fun current => ?_
  refine Respects.bind
    (talks_of_keepsThreads (keeps_threads_updateCards (by intro c; rfl))) fun _ => ?_
  exact (readOnly_requireCard _).respects

theorem talks_setCardStatus (id : Int) (status : CardStatus) :
    Respects Talks (setCardStatus conn id status) := by
  refine (readOnly_refuse _ _).respects.bind fun _ => ?_
  refine Respects.bind
    (talks_of_keepsThreads (keeps_threads_updateCards (by intro c; rfl))) fun _ => ?_
  exact (readOnly_requireCard _).respects

theorem talks_setCardAwaiting (id : Int) (reason : AwaitingReason) :
    Respects Talks (setCardAwaiting conn id reason) :=
  Respects.bind (talks_of_keepsThreads (keeps_threads_updateCards (by intro c; rfl))) fun _ =>
    (readOnly_requireCard _).respects

theorem talks_pauseRunTimeoutUow (cardId : Int) (reason : AwaitingReason) (nowMs : Int) :
    Respects Talks (pauseRunTimeoutUow conn cardId reason nowMs) := by
  refine Respects.bind (Respects.transaction ?_) fun _ => (readOnly_requireCard _).respects
  exact Respects.bind (talks_of_keepsThreads (keeps_threads_updateCards (by intro c; rfl))) fun _ =>
    talks_of_keepsThreads (keeps_threads_updateRuns (by intro r; rfl))

theorem talks_resumeRunTimeoutUow (cardId : Int) (status : CardStatus) (nowMs : Int) :
    Respects Talks (resumeRunTimeoutUow conn cardId status nowMs) := by
  have hcard : Respects Talks (do
      let _ ← updateCards (fun c => c.id == cardId) fun c =>
        { c with status := status, awaitingReason := none, updatedAt := conn.now }
      pure ()) :=
    Respects.bind (talks_of_keepsThreads (keeps_threads_updateCards (by intro c; rfl))) fun _ =>
      respects_pure ()
  refine (readOnly_refuse _ _).respects.bind fun _ => ?_
  refine Respects.bind (Respects.transaction ?_) fun _ => (readOnly_requireCard _).respects
  refine readOnly_get.respects.bind fun db => ?_
  dsimp only
  split
  · exact Respects.bind (talks_of_keepsThreads (keeps_threads_updateRuns (by intro r; rfl)))
      fun _ => hcard
  · exact hcard

/-- A card goes with all its runs, open or not. -/
theorem talks_deleteCard (id : Int) : Respects Talks (deleteCard id) := by
  refine (readOnly_requireCard id).respects.bind fun card => Respects.bind ?_ fun _ => ?_
  · refine (exec_atomic _).respects fun db _ db' h => ?_
    have hlife : life db'.toTables = (life db.toTables).remove id := by
      rw [exec_ok.mp h]
      exact life_eq (congrArg Table.rows cardStates_delete) rfl
    show ReflTransGen Exchange (Lifecycle.threads _) (Lifecycle.threads _)
    rw [hlife, threads_remove]
    exact .single (.remove id)
  · exact talks_of_keeps (keeps_renumberColumnCardsTx placeBlind_life card.columnId).transaction

theorem talks_promoteRunWithAnchorUow (runId : Int)
    (workspaceId paneId anchorPaneId : Option String)
    (deadlineAtMs : Option Int) (captured : Option String) :
    Respects Talks (promoteRunWithAnchorUow conn runId workspaceId paneId anchorPaneId deadlineAtMs
      captured) := by
  refine promoteRunWithAnchorUow_atomic.respects fun db r db' h => ?_
  obtain ⟨run, hfind, hqueued, hlife⟩ := life_promote h
  show ReflTransGen Exchange (Lifecycle.threads _) (Lifecycle.threads _)
  rw [hlife, threads_promote]
  exact .single (.capture _ captured (mem_threads.mpr ⟨run, Table.mem_of_find? hfind, rfl⟩)
    (isOpen_of_isQueued hqueued))

theorem talks_promoteCapturedSessionUow (runId : Int) (sessionId : String) :
    Respects Talks (promoteCapturedSessionUow conn runId sessionId) := by
  refine (promoteCapturedSessionUow_atomic runId sessionId).respects fun db r db' h => ?_
  simp only [promoteCapturedSessionUow, bind_ok, refuse_ok, transaction_ok, get_ok, okOr_ok,
    updateRuns_ok, updateCards_ok, pure_ok, getRun_ok] at h
  obtain ⟨_, _, ⟨-, rfl⟩, _, _, ⟨_, _, ⟨rfl, rfl⟩, run, _, ⟨hrun, rfl⟩, _, captured, hruns, _, _,
    hfault, _, told, ⟨hcards, -⟩, -, rfl⟩, -, rfl⟩ := h
  cases lifecycleFault_ok hfault
  obtain ⟨hfind, hopen⟩ := Option.filter_eq_some_iff.mp hrun
  obtain rfl : run.id = runId := Table.key_of_find? hfind
  have hthreads : Tables.threads told.toTables = (Tables.threads db.toTables).capture (threadOf run)
      (some sessionId) := by
    refine threads_eq ?_ ?_
    · rw [hcards, hruns]
      exact topics_update (g := Topic.tell (some sessionId)) rfl fun _ _ _ => rfl
    · rw [hcards, hruns]
      exact map_rewrite (fun _ => rfl) fun _ => rfl
  show ReflTransGen Exchange _ (Tables.threads told.toTables)
  rw [hthreads]
  exact .single (.capture _ _ (mem_threads.mpr ⟨run, Table.mem_of_find? hfind, rfl⟩) hopen)

/-! ## Finalizing -/

/-- A finalization, up to where the next run is inserted, ends its run. -/
theorem threads_finalized {p : FinalizeRun} {run : Run} {mid : Db}
    (h : Finalized conn p run db mid) :
    Tables.threads mid.toTables = (Tables.threads db.toTables).close run.id := by
  refine threads_eq ?_ ?_
  · rw [life_cards, h.cards]
    exact map_rewrite_self fun _ => rfl
  · rw [life_runs, h.runs]
    exact map_rewrite (fun _ => rfl) fun _ => rfl

/-- The conversation of a next run is the one the card has, or none. -/
def KeepsConversation (db : Db) (cardId : Int) (next : EnqueueRun) : Prop :=
  next.sessionId = none ∨ ∀ card, db.card? cardId = some card → card.sessionId = next.sessionId

theorem keepsConversation_congr {cardId : Int} {next : EnqueueRun}
    (h : (Tables.threads db'.toTables).cards = (Tables.threads db.toTables).cards) :
    KeepsConversation db' cardId next ↔ KeepsConversation db cardId next := by
  have hsession (db : Db) :
      (∀ card, db.card? cardId = some card → card.sessionId = next.sessionId) ↔
      ∀ c ∈ (Tables.threads db.toTables).cards, c.id = cardId → c.sessionId = next.sessionId := by
    constructor
    · intro hall c hc hid
      obtain ⟨state, hstate, rfl⟩ := mem_topics.mp hc
      obtain ⟨card, hcard, rfl⟩ := mem_cardStates.mp hstate
      exact hall card (Table.find?_eq_some.mpr ⟨hcard, hid⟩)
    · intro hall card hcard
      obtain ⟨hmem, hid⟩ := Table.find?_eq_some.mp hcard
      exact hall _ (mem_topics.mpr ⟨_, mem_cardStates.mpr ⟨card, hmem, rfl⟩, rfl⟩) hid
  simp only [KeepsConversation, hsession, h]

/-- An insertion that keeps to the card's conversation is an enqueueing. -/
theorem threads_insertNext {cardId : Int} {next : EnqueueRun} {nextId : Option Int}
    (hcard : next.cardId = cardId) (hfits : KeepsConversation db cardId next)
    (h : insertNext cardId (some next) db = .ok nextId db') :
    Tables.threads db'.toTables = (Tables.threads db.toTables).queue cardId next.sessionId := by
  simp only [insertNext, bind_ok, insertRun_ok, updateCards_ok, pure_ok] at h
  obtain ⟨id, inserted, ⟨hruns, -⟩, _, queued, ⟨hcards, -⟩, -, rfl⟩ := h
  refine threads_eq ?_ ?_
  · rw [hcards, hruns]
    refine topics_update (g := Topic.tell next.sessionId) rfl fun c hc hid => ?_
    have hfind : db.card? cardId = some c := hid ▸ Table.find?_key hc
    rcases hfits with hnone | hsame
    · simp [topicOf, cardState, Topic.tell, hnone]
    · have hsession := hsame c hfind
      cases hnext : next.sessionId <;> simp [topicOf, cardState, Topic.tell, hsession, hnext]
  · rw [hcards, hruns, ← hcard]
    simp only [Tables.threads, Threads.queue, life_runs, rows_insert, List.map_append,
      List.map_singleton, rows_threads, nextKey_threads]
    rfl

theorem closed_of_insertNext {cardId : Int} {next : EnqueueRun} {nextId : Option Int}
    (hcard : next.cardId = cardId)
    (h : insertNext cardId (some next) db = .ok nextId db') : (life db.toTables).Closed cardId := by
  simp only [insertNext, bind_ok, insertRun_ok, updateCards_ok, pure_ok] at h
  obtain ⟨_, inserted, ⟨hruns, -⟩, -⟩ := h
  subst hcard
  refine @closed_of_insert db next.cardId next inserted ?_
  rw [hruns]
  rfl

/-- A finalization ends a conversation, and goes on with it in the next run or not at all. -/
theorem talks_finalizeRunUow {p : FinalizeRun}
    (hfits : ∀ run next, db.run? p.runId = some run → p.next = some next →
    KeepsConversation db run.cardId next) : Talks db (finalState (finalizeRunUow conn p db)) := by
  refine (finalizeRunUow_atomic p).at fun effects db' h => ?_
  obtain ⟨ids, htx⟩ := finalizeRunUow_ok h
  obtain ⟨run, mid, hfind, -, -, hcard, hmid, hins⟩ := finalizeRunTx_cut htx
  have hclose := threads_finalized hmid
  have hended : ReflTransGen Exchange (Tables.threads db.toTables)
      (Tables.threads mid.toTables) := by
    rw [hclose]
    exact .single (.close run.id)
  cases hnext : p.next with
  | none =>
      rw [hnext] at hins
      obtain ⟨-, rfl⟩ := pure_ok.mp hins
      exact hended
  | some next =>
      rw [hnext] at hins
      have hcards : (Tables.threads mid.toTables).cards = (Tables.threads db.toTables).cards := by
        rw [hclose]
        rfl
      have hkeeps := (keepsConversation_congr hcards).mpr (hfits run next hfind hnext)
      have hqueue := threads_insertNext (hcard next hnext) hkeeps hins
      have hclosed := closed_of_insertNext (hcard next hnext) hins
      obtain ⟨card, hrow, hid⟩ := Db.run_card (Table.mem_of_find? hfind)
      have htopic : ∃ c ∈ (Tables.threads mid.toTables).cards, c.id = run.cardId := by
        rw [hcards]
        exact ⟨_, mem_topics.mpr ⟨_, mem_cardStates.mpr ⟨card, hrow, rfl⟩, rfl⟩, hid⟩
      refine hended.tail ?_
      rw [hqueue]
      exact .queue run.cardId next.sessionId htopic (closed_threads hclosed)

/-! ## Histories -/

theorem noHop_create : NoHop .create := by
  intro id next h
  cases h

theorem noHop_enqueue (cardId : Int) (p : EnqueueRun) : NoHop (.enqueue cardId p) := by
  intro id next h
  cases h

/-- The next run of a finalization, if there is one, keeps to the conversation of the card. -/
def StaysOnTopic (db : Db) (op : Operation) : Prop :=
  ∀ p run next, op = .finalizeRun p → db.run? p.runId = some run → p.next = some next →
    Lifecycle.KeepsConversation db run.cardId next

theorem talks_run (op : Operation) (hkeeps : StaysOnTopic db op) :
    Talks db (finalState (op.run conn db)) := by
  cases op with
  | finalizeRun p =>
      simp only [Operation.run, finalState_dropping]
      exact talks_finalizeRunUow fun run next hfind hnext => hkeeps p run next rfl hfind hnext
  | createCard p =>
      exact respects_dropping (respects_talks (respects_createCard noHop_create conn p)) db
  | createCardAndEnqueue p run =>
      exact respects_dropping
        (respects_talks (respects_createCardAndEnqueueUow conn p noHop_create fun id =>
          noHop_enqueue id run)) db
  | duplicateCard id =>
      exact respects_dropping (respects_talks (respects_duplicateCard noHop_create conn id)) db
  | updateCard p =>
      exact respects_dropping (talks_updateCard p) db
  | setCardArchived id archived =>
      exact respects_dropping (talks_of_keeps (keeps_life_setCardArchived conn id archived)) db
  | moveCard id targetColumn position =>
      exact respects_dropping
        (talks_of_keeps (keeps_moveCard placeBlind_life conn id targetColumn position)) db
  | moveCardAndEnqueue id targetColumn position run =>
      exact respects_dropping
        (respects_talks (respects_moveCardAndEnqueueUow conn id targetColumn position
          (noHop_enqueue id run))) db
  | transferCard id targetBoard targetColumn position =>
      exact respects_dropping
        (talks_of_keeps (keeps_life_transferCard conn id targetBoard targetColumn position)) db
  | transferCardAndEnqueue id targetBoard targetColumn position run =>
      exact respects_dropping (respects_talks
        (respects_transferCardAndEnqueueUow conn id targetBoard targetColumn position
          (noHop_enqueue id run))) db
  | deleteCard id => exact talks_deleteCard id db
  | setCardStatus id status =>
      exact respects_dropping (talks_setCardStatus id status) db
  | setCardAwaiting id reason =>
      exact respects_dropping (talks_setCardAwaiting id reason) db
  | pauseRunTimeout cardId reason nowMs =>
      exact respects_dropping (talks_pauseRunTimeoutUow cardId reason nowMs) db
  | resumeRunTimeout cardId status nowMs =>
      exact respects_dropping (talks_resumeRunTimeoutUow cardId status nowMs) db
  | enqueueRun p =>
      exact respects_dropping
        (respects_talks (respects_enqueueRunUow conn (noHop_enqueue p.cardId p))) db
  | promoteRun runId workspaceId paneId anchorPaneId deadline captured =>
      exact respects_dropping (talks_promoteRunWithAnchorUow runId workspaceId paneId anchorPaneId
        deadline captured) db
  | promoteCapturedSession runId sessionId =>
      exact respects_dropping (talks_promoteCapturedSessionUow runId sessionId) db
  | createColumn p =>
      exact respects_dropping (talks_of_keeps (keeps_createColumn columnBlind_life p)) db
  | updateColumn p =>
      exact respects_dropping (talks_of_keeps (keeps_updateColumn columnBlind_life p)) db
  | reorderColumn id position =>
      exact respects_dropping (talks_of_keeps (keeps_reorderColumn columnBlind_life id position)) db
  | deleteColumn id moveCardsTo =>
      exact talks_of_keeps
        (keeps_deleteColumn placeBlind_life columnBlind_life conn id moveCardsTo) db
  | applyTemplateColumns boardId specs wiring =>
      exact respects_dropping
        (talks_of_keeps (keeps_applyTemplateColumnsUow columnBlind_life boardId specs wiring)) db
  | addComment cardId author body =>
      exact respects_dropping
        (talks_of_keeps (keeps_addComment commentBlind_life conn cardId author body)) db
  | updateComment id body =>
      exact respects_dropping
        (talks_of_keeps (keeps_updateComment commentBlind_life conn id body)) db
  | softDeleteComment id =>
      exact respects_dropping
        (talks_of_keeps (keeps_softDeleteComment commentBlind_life conn id)) db
  | openBoard scopePath =>
      exact respects_dropping
        (talks_of_keeps (keeps_openBoard siteBlind_life columnBlind_life scopePath)) db
  | createProjectContext scopePath =>
      exact respects_dropping
        (talks_of_keeps (keeps_createProjectContext siteBlind_life columnBlind_life scopePath)) db
  | openProjectContext scopePath =>
      exact respects_dropping
        (talks_of_keeps (keeps_openProjectContext siteBlind_life columnBlind_life scopePath)) db
  | selectProjectByScope scopePath boardId =>
      exact respects_dropping
        (talks_of_keeps (keeps_selectProjectByScope siteBlind_life.picker scopePath boardId)) db
  | selectBoard boardId =>
      exact respects_dropping (talks_of_keeps (keeps_selectBoard siteBlind_life.picker boardId)) db
  | createBoard projectId name =>
      exact respects_dropping
        (talks_of_keeps (keeps_createBoard siteBlind_life columnBlind_life projectId name)) db
  | renameBoard id name =>
      exact respects_dropping (talks_of_keeps (keeps_renameBoard siteBlind_life id name)) db
  | setBoardArchived boardId archived =>
      exact respects_dropping
        (talks_of_keeps (keeps_setBoardArchived siteBlind_life conn boardId archived)) db
  | setProjectArchived scopePath archived =>
      exact respects_dropping
        (talks_of_keeps (keeps_setProjectArchived siteBlind_life conn scopePath archived)) db

end HerdrBoard.Lifecycle
