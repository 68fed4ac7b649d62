import HerdrBoard.Lifecycle.Evolution
import HerdrBoard.Lifecycle.Store

/-!
# Conversations of cards

A card remembers the conversation that its next run may resume: that of its newest run that has one.
-/

open Lib HerdrBoard.Core

namespace HerdrBoard.Lifecycle

/-! ## Conversations -/

/-- A run, as far as its conversation goes. -/
structure Thread where
  id : Int
  cardId : Int
  sessionId : Option String
  isOpen : Bool

instance : Keyed Thread := ⟨Thread.id⟩

@[simp] theorem key_thread (r : Thread) : Keyed.key r = r.id := rfl

def Thread.close (r : Thread) : Thread := { r with isOpen := false }

/-- A conversation that is given replaces the one there was. -/
def Thread.tell (session : Option String) (r : Thread) : Thread :=
  { r with sessionId := session <|> r.sessionId }

/-- A card, as far as its conversation goes. -/
structure Topic where
  id : Int
  sessionId : Option String

instance : Keyed Topic := ⟨Topic.id⟩

@[simp] theorem key_topic (c : Topic) : Keyed.key c = c.id := rfl

def Topic.tell (session : Option String) (c : Topic) : Topic :=
  { c with sessionId := session <|> c.sessionId }

structure Threads where
  cards : Table Topic
  runs : Table Thread

namespace Threads

variable (s : Threads)

/-- The conversation of the newest run of the card that has one. -/
def latest (cardId : Int) : Option String :=
  ((s.runs.select fun r => r.cardId == cardId).filterMap Thread.sessionId).getLast?

def create : Threads := { s with cards := s.cards.insert fun id => { id, sessionId := none } }

def remove (cardId : Int) : Threads where
  cards := s.cards.delete fun c => c.id == cardId
  runs := s.runs.delete fun r => r.cardId == cardId

def close (runId : Int) : Threads :=
  { s with runs := s.runs.update (fun r => r.id == runId) Thread.close }

def tell (cardId : Int) (session : Option String) : Table Topic :=
  s.cards.update (fun c => c.id == cardId) (Topic.tell session)

def queue (cardId : Int) (session : Option String) : Threads where
  cards := s.tell cardId session
  runs := s.runs.insert fun id => { id, cardId, sessionId := session, isOpen := true }

def capture (r : Thread) (session : Option String) : Threads where
  cards := s.tell r.cardId session
  runs := s.runs.update (fun t => t.id == r.id) (Thread.tell session)

/-- What may happen to the conversations of a board. -/
inductive Exchange : Threads → Prop
  | create : Exchange s.create
  | remove (cardId : Int) : Exchange (s.remove cardId)
  | close (runId : Int) : Exchange (s.close runId)
  | queue (cardId : Int) (session : Option String) (hcard : ∃ c ∈ s.cards, c.id = cardId)
      (hclosed : ∀ r ∈ s.runs, r.cardId = cardId → r.isOpen = false) :
      Exchange (s.queue cardId session)
  | capture (r : Thread) (session : Option String) (hr : r ∈ s.runs) (hopen : r.isOpen = true) :
      Exchange (s.capture r session)

/-- Every card has the conversation of its newest run that has one, and an open run is the newest
of its card. -/
structure Follows : Prop where
  follows : ∀ c ∈ s.cards, c.sessionId = s.latest c.id
  newest : ∀ r ∈ s.runs, r.isOpen = true → ∀ t ∈ s.runs, t.cardId = r.cardId → t.id ≤ r.id
  owned : ∀ r ∈ s.runs, ∃ c ∈ s.cards, c.id = r.cardId

variable {s}

theorem latest_eq_none {cardId : Int} (h : ∀ r ∈ s.runs, r.cardId ≠ cardId) :
    s.latest cardId = none := by
  have hnil : (s.runs.select fun r => r.cardId == cardId) = [] := by
    refine List.filter_eq_nil_iff.mpr fun r hr => ?_
    simpa using h r hr
  rw [latest, hnil]
  rfl

theorem getLast?_append_toList {α : Type} (l : List α) (o : Option α) :
    (l ++ o.toList).getLast? = (o <|> l.getLast?) := by
  cases o <;> simp

theorem latest_insert {cardId k : Int} {session : Option String} {cards : Table Topic} :
    latest
      { cards, runs := s.runs.insert fun id => { id, cardId, sessionId := session, isOpen := true } }
      k =
      if cardId = k then session <|> s.latest k else s.latest k := by
  unfold latest
  by_cases hk : cardId = k
  · have hselect :
        ((s.runs.insert fun id => { id, cardId, sessionId := session, isOpen := true }).select
        fun r => r.cardId == k).filterMap Thread.sessionId =
          (s.runs.select fun r => r.cardId == k).filterMap Thread.sessionId ++ session.toList := by
      simp only [Table.select, Table.insert, List.filter_append, List.filterMap_append]
      cases session <;> simp [hk]
    rw [if_pos hk, hselect, getLast?_append_toList]
  · have hselect :
        ((s.runs.insert fun id => { id, cardId, sessionId := session, isOpen := true }).select
        fun r => r.cardId == k) = s.runs.select fun r => r.cardId == k := by
      simp [Table.select, Table.insert, hk]
    rw [if_neg hk, hselect]

theorem latest_close {runId k : Int} : (s.close runId).latest k = s.latest k := by
  have hselect : ((s.close runId).runs.select fun r => r.cardId == k) =
      (s.runs.select fun r => r.cardId == k).map fun r => if r.id == runId then r.close else r :=
    @Table.select_update _ _ s.runs _ _ Thread.close (fun _ => rfl) fun _ => rfl
  rw [latest, latest, hselect, List.filterMap_map]
  congr 2
  funext r
  simp only [Function.comp_apply]
  split <;> rfl

theorem latest_remove {cardId k : Int} (hk : k ≠ cardId) :
    (s.remove cardId).latest k = s.latest k := by
  have hselect : ((s.remove cardId).runs.select fun r => r.cardId == k) = s.runs.select fun r =>
      r.cardId == k := by
    simp only [remove, Table.select, Table.delete, List.filter_filter]
    refine List.filter_congr fun r _ => ?_
    by_cases hr : r.cardId = k
    · simp [hr, hk]
    · simp [hr]
  rw [latest, latest, hselect]

/-- The newest run of a card comes last. -/
theorem select_newest {r : Thread} (hr : r ∈ s.runs)
    (hnewest : ∀ t ∈ s.runs, t.cardId = r.cardId → t.id ≤ r.id) :
    ∃ older, (s.runs.select fun t => t.cardId == r.cardId) = older ++ [r] ∧
      ∀ t ∈ older, t.id ≠ r.id := by
  have hin : r ∈ s.runs.select fun t => t.cardId == r.cardId := Table.mem_select.mpr ⟨hr, by simp⟩
  have hascending : (s.runs.select fun t => t.cardId == r.cardId).Pairwise fun a b => a.id < b.id :=
    s.runs.ascending.sublist List.filter_sublist
  have hbelow : ∀ t ∈ s.runs.select fun t => t.cardId == r.cardId, t.id ≤ r.id := by
    intro t ht
    obtain ⟨ht, hcard⟩ := Table.mem_select.mp ht
    exact hnewest t ht (by simpa using hcard)
  obtain ⟨older, newer, heq⟩ := List.append_of_mem hin
  rw [heq] at hascending hbelow
  obtain ⟨-, hlast, hbefore⟩ := List.pairwise_append.mp hascending
  have hnewer : newer = [] := by
    refine List.eq_nil_iff_forall_not_mem.mpr fun t ht => ?_
    have hlt : r.id < t.id := (List.pairwise_cons.mp hlast).1 t ht
    have hle : t.id ≤ r.id := hbelow t (by simp [ht])
    omega
  subst hnewer
  refine ⟨older, heq, fun t ht => ?_⟩
  have hlt : t.id < r.id := hbefore t ht r (by simp)
  omega

/-- What the newest run of a card tells is what the card goes by. -/
theorem latest_capture {r : Thread} {session : Option String} {k : Int} (hr : r ∈ s.runs)
    (hnewest : ∀ t ∈ s.runs, t.cardId = r.cardId → t.id ≤ r.id) :
    (s.capture r session).latest k = if r.cardId = k then session <|> s.latest k
      else s.latest k := by
  have hselect : ((s.capture r session).runs.select fun t => t.cardId == k) =
      (s.runs.select fun t => t.cardId == k).map fun t =>
        if t.id == r.id then t.tell session else t :=
    @Table.select_update _ _ s.runs _ _ (Thread.tell session) (fun _ => rfl) fun _ => rfl
  unfold latest
  rw [hselect]
  split
  · next hk =>
      subst hk
      obtain ⟨older, heq, hne⟩ := select_newest hr hnewest
      have hsame : (older.map fun t => if t.id == r.id then t.tell session else t) = older := by
        refine (List.map_congr_left fun t ht => ?_).trans (List.map_id _)
        simp [hne t ht]
      have hlast (o : Option String) (t : Thread) (ht : t.sessionId = o) :
          (older ++ [t]).filterMap Thread.sessionId = older.filterMap Thread.sessionId ++
            o.toList := by
        subst ht
        cases h : t.sessionId <;> simp [h]
      rw [heq, List.map_append, hsame, List.map_singleton, if_pos (by simp), hlast _ _ rfl,
        hlast _ _ rfl, getLast?_append_toList, getLast?_append_toList]
      cases session <;> rfl
  · next hk =>
      have hsame : ((s.runs.select fun t => t.cardId == k).map fun t =>
          if t.id == r.id then t.tell session else t) =
            s.runs.select fun t => t.cardId == k := by
        refine (List.map_congr_left fun t ht => ?_).trans (List.map_id _)
        obtain ⟨ht, hcard⟩ := Table.mem_select.mp ht
        have hne : t.id ≠ r.id := by
          intro hid
          have heq : t = r := Table.eq_of_key_eq ht hr hid
          exact hk (heq ▸ by simpa using hcard)
        simp [hne]
      rw [hsame]

theorem mem_tell {cardId : Int} {session : Option String} {c : Topic} :
    c ∈ s.tell cardId session ↔
      ∃ c₀ ∈ s.cards, (if c₀.id == cardId then c₀.tell session else c₀) = c := by
  show c ∈ s.cards.update (fun c => c.id == cardId) (Topic.tell session) ↔ _
  exact Table.mem_update

/-- A conversation told to a card and heard from its runs. -/
theorem Follows.tell {t : Threads} {cardId : Int} {session : Option String} (h : s.Follows)
    (hcards : t.cards = s.tell cardId session)
    (hlatest : ∀ k, t.latest k = if cardId = k then session <|> s.latest k else s.latest k) :
    ∀ c ∈ t.cards, c.sessionId = t.latest c.id := by
  intro c hc
  rw [hcards] at hc
  obtain ⟨old, hold, rfl⟩ := mem_tell.mp hc
  rw [hlatest]
  by_cases hid : old.id = cardId
  · simp [hid, Topic.tell, h.follows old hold]
  · simp [hid, Ne.symm hid, h.follows old hold]

/-- Telling a card something does not lose it. -/
theorem owned_tell {cardId k : Int} {session : Option String} (h : ∃ c ∈ s.cards, c.id = k) :
    ∃ c ∈ s.tell cardId session, c.id = k := by
  obtain ⟨c, hc, rfl⟩ := h
  refine ⟨_, mem_tell.mpr ⟨c, hc, rfl⟩, ?_⟩
  split <;> rfl

theorem mem_close {runId : Int} {r : Thread} :
    r ∈ (s.close runId).runs ↔ ∃ r₀ ∈ s.runs, (if r₀.id == runId then r₀.close else r₀) = r := by
  show r ∈ s.runs.update (fun r => r.id == runId) Thread.close ↔ _
  exact Table.mem_update

theorem mem_capture {r t : Thread} {session : Option String} :
    t ∈ (s.capture r session).runs ↔
      ∃ t₀ ∈ s.runs, (if t₀.id == r.id then t₀.tell session else t₀) = t := by
  show t ∈ s.runs.update (fun t => t.id == r.id) (Thread.tell session) ↔ _
  exact Table.mem_update

theorem Follows.create (h : s.Follows) : s.create.Follows where
  follows c hc := by
    rcases Table.mem_insert.mp hc with hc | rfl
    · exact h.follows c hc
    · refine (latest_eq_none fun r hr hid => ?_).symm
      obtain ⟨c, hc, hcid⟩ := h.owned r hr
      have hlt : c.id < s.cards.nextKey := Table.lt_nextKey hc
      exact absurd (hcid.trans hid) (ne_of_lt hlt)
  newest := h.newest
  owned r hr := by
    obtain ⟨c, hc, hid⟩ := h.owned r hr
    exact ⟨c, Table.mem_insert.mpr (.inl hc), hid⟩

theorem Follows.remove (h : s.Follows) (cardId : Int) : (s.remove cardId).Follows where
  follows c hc := by
    obtain ⟨hc, hne⟩ := Table.mem_delete.mp hc
    rw [latest_remove (by simpa using hne)]
    exact h.follows c hc
  newest r hr hopen t ht := h.newest r (Table.mem_delete.mp hr).1 hopen t (Table.mem_delete.mp ht).1
  owned r hr := by
    obtain ⟨hr, hne⟩ := Table.mem_delete.mp hr
    obtain ⟨c, hc, hid⟩ := h.owned r hr
    exact ⟨c, Table.mem_delete.mpr ⟨hc, hid ▸ hne⟩, hid⟩

theorem Follows.close (h : s.Follows) (runId : Int) : (s.close runId).Follows := by
  have hkept (x : Thread) : (if x.id == runId then x.close else x).id = x.id ∧
      (if x.id == runId then x.close else x).cardId = x.cardId := by
    split <;> exact ⟨rfl, rfl⟩
  refine ⟨fun c hc => ?_, fun r hr hopen t ht hcard => ?_, fun r hr => ?_⟩
  · rw [latest_close]
    exact h.follows c hc
  · obtain ⟨r₀, hr₀, rfl⟩ := mem_close.mp hr
    obtain ⟨t₀, ht₀, rfl⟩ := mem_close.mp ht
    rw [(hkept t₀).1, (hkept r₀).1]
    rw [(hkept t₀).2, (hkept r₀).2] at hcard
    refine h.newest r₀ hr₀ ?_ t₀ ht₀ hcard
    split at hopen
    · cases hopen
    · exact hopen
  · obtain ⟨r₀, hr₀, rfl⟩ := mem_close.mp hr
    rw [(hkept r₀).2]
    exact h.owned r₀ hr₀

theorem Follows.queue (h : s.Follows) {cardId : Int} (session : Option String)
    (hcard : ∃ c ∈ s.cards, c.id = cardId)
    (hclosed : ∀ r ∈ s.runs, r.cardId = cardId → r.isOpen = false) :
    (s.queue cardId session).Follows where
  follows := h.tell rfl fun _ => latest_insert
  newest r hr hopen t ht hcard := by
    rcases Table.mem_insert.mp hr with hr | rfl
    · rcases Table.mem_insert.mp ht with ht | rfl
      · exact h.newest r hr hopen t ht hcard
      · rw [hclosed r hr hcard.symm] at hopen
        cases hopen
    · rcases Table.mem_insert.mp ht with ht | rfl
      · exact le_of_lt (Table.lt_nextKey ht)
      · exact le_refl _
  owned r hr := by
    rcases Table.mem_insert.mp hr with hr | rfl
    · exact owned_tell (h.owned r hr)
    · exact owned_tell hcard

theorem Follows.capture (h : s.Follows) {r : Thread} (session : Option String) (hr : r ∈ s.runs)
    (hopen : r.isOpen = true) : (s.capture r session).Follows := by
  have hkept (x : Thread) : (if x.id == r.id then x.tell session else x).id = x.id ∧
      (if x.id == r.id then x.tell session else x).cardId = x.cardId ∧
      (if x.id == r.id then x.tell session else x).isOpen = x.isOpen := by
    split <;> exact ⟨rfl, rfl, rfl⟩
  refine ⟨h.tell rfl fun _ => latest_capture hr (h.newest r hr hopen),
    fun a ha haopen b hb hcard => ?_, fun t ht => ?_⟩
  · obtain ⟨a₀, ha₀, rfl⟩ := mem_capture.mp ha
    obtain ⟨b₀, hb₀, rfl⟩ := mem_capture.mp hb
    obtain ⟨hida, hcarda, hopena⟩ := hkept a₀
    obtain ⟨hidb, hcardb, -⟩ := hkept b₀
    rw [hida, hidb]
    rw [hcarda, hcardb] at hcard
    exact h.newest a₀ ha₀ (hopena ▸ haopen) b₀ hb₀ hcard
  · obtain ⟨t₀, ht₀, rfl⟩ := mem_capture.mp ht
    rw [(hkept t₀).2.1]
    exact owned_tell (h.owned t₀ ht₀)

theorem Exchange.follows {t : Threads} (hst : s.Exchange t) (h : s.Follows) : t.Follows := by
  cases hst with
  | create => exact h.create
  | remove cardId => exact h.remove cardId
  | close runId => exact h.close runId
  | queue cardId session hcard hclosed => exact h.queue session hcard hclosed
  | capture r session hr hopen => exact h.capture session hr hopen

theorem follows_of_exchanges {t : Threads} (hst : Relation.ReflTransGen Exchange s t)
    (h : s.Follows) : t.Follows := by
  induction hst with
  | refl => exact h
  | tail _ hlast ih => exact hlast.follows ih

end Threads

end HerdrBoard.Lifecycle
