import HerdrBoard.Server.Buffer

/-!
# Refreshes of a subscriber

Whether a board change that was accepted reaches the subscriber, as itself or as a later change
that covers it. -/

open HerdrBoard.Core

namespace HerdrBoard.Server

/-! ## A subscriber's feed -/

/-- An entry, with the number of the push it comes from. -/
structure Entry where
  number : Nat
  item : Outbound
  deriving DecidableEq

/-- An accepted event, with its number and its place among everything popped or queued. -/
structure Accepted where
  place : Nat
  number : Nat
  event : Event
  deriving DecidableEq

/-- A buffer with what went through it: `history` is what was popped and, behind it,
what is queued. -/
structure Feed where
  buffer : Buffer
  history : List Entry
  popped : Nat
  accepted : List Accepted
  pushes : Nat

inductive Op where
  | event (ev : Event)
  | response (line : String)
  | pop
  | close

namespace Feed

def new (capacity : Nat) : Feed where
  buffer := .new capacity
  history := []
  popped := 0
  accepted := []
  pushes := 0

variable (s : Feed)

/-- An event takes the place of the entry it replaces, or a new one. -/
def placeOf (ev : Event) : Nat :=
  if ev.isBoardChanged && s.buffer.backIsBoardChanged then s.history.length - 1
    else s.history.length

def step : Op → Feed
  | .event ev =>
      match s.buffer.pushEvent ev with
      | (true, buffer) =>
          { s with
            buffer
            history := s.history.take (s.placeOf ev) ++ [⟨s.pushes, .event ev⟩]
            accepted := s.accepted ++ [⟨s.placeOf ev, s.pushes, ev⟩]
            pushes := s.pushes + 1 }
      | (false, buffer) => { s with buffer }
  | .response line =>
      match s.buffer.pushResponse line with
      | .ok buffer =>
          { s with
            buffer, history := s.history ++ [⟨s.pushes, .response line⟩], pushes := s.pushes + 1 }
      | .error _ => s
  | .pop =>
      match s.buffer.pop with
      | (some _, buffer) => { s with buffer, popped := s.popped + 1 }
      | (none, buffer) => { s with buffer }
  | .close => { s with buffer := s.buffer.close }

def run (ops : List Op) : Feed := ops.foldl step s

/-- What the subscriber has got. -/
def delivered : List Entry := s.history.take s.popped

/-- The subscriber pops everything that is queued. -/
def drain : Feed := s.run (List.replicate s.buffer.entries.length .pop)

end Feed

/-- The event names the board. -/
def Event.scopedTo (b : Int) : Event → Prop
  | .boardChanged _ boardId _ _ => boardId = some b
  | _ => False

/-- The subscriber of the board refreshes on it. -/
def Event.refreshes (b : Int) : Event → Prop
  | .boardChanged _ boardId _ _ => boardId = some b ∨ boardId = none
  | _ => False

def Outbound.refreshes (b : Int) : Outbound → Prop
  | .event ev => ev.refreshes b
  | .response _ => False

variable {s : Feed} {op : Op} {b : Int}

/-- Every accepted event that names a board is followed by a refresh of it. -/
def Feed.RefreshedBy (s : Feed) (entries : List Entry) : Prop :=
  ∀ a ∈ s.accepted, ∀ b, a.event.scopedTo b → ∃ x ∈ entries, a.number ≤ x.number ∧
    x.item.refreshes b

/-- The subscriber pops a refresh for every accepted event, if the outbox is not closed first. -/
def Feed.Refreshed (s : Feed) : Prop := s.buffer.closed = true ∨ s.RefreshedBy s.drain.delivered

/-- The event refreshes every board named by one whose entry it replaces. -/
def Feed.Covers (s : Feed) : Op → Prop
  | .event ev => s.buffer.coalesces ev → ∀ a ∈ s.accepted, a.place + 1 = s.history.length →
      ∀ b, a.event.scopedTo b → ev.refreshes b
  | _ => True

/-- Every step of the run covers what it replaces. -/
def Feed.CoversAll (s : Feed) : List Op → Prop
  | [] => True
  | op :: ops => s.Covers op ∧ (s.step op).CoversAll ops

/-! ## What every step keeps -/

structure Feed.Ok (s : Feed) : Prop where
  queued : (s.history.drop s.popped).map Entry.item = s.buffer.entries
  popped_le : s.popped ≤ s.history.length
  ascending : s.history.Pairwise fun x y => x.number < y.number
  numbers : ∀ x ∈ s.history, x.number < s.pushes
  accepted : ∀ a ∈ s.accepted, a.number < s.pushes ∧
    (∃ x, s.history[a.place]? = some x ∧ a.number ≤ x.number) ∧
    ∀ y ∈ s.history.take a.place, y.number < a.number

/-- At the place of every accepted event there is a refresh of the board it names. -/
def Feed.Fresh (s : Feed) : Prop :=
  ∀ a ∈ s.accepted, ∀ b, a.event.scopedTo b → ∃ x, s.history[a.place]? = some x ∧ x.item.refreshes b

theorem refreshes_of_scopedTo {ev : Event} (h : ev.scopedTo b) : ev.refreshes b := by
  cases ev with
  | boardChanged reason boardId cardId columnId => exact .inl h
  | runEnded cardId runId outcome => exact h
  | localStateChanged space snapshot => exact h

theorem Feed.ok_new (capacity : Nat) : (Feed.new capacity).Ok where
  queued := rfl
  popped_le := Nat.le_refl 0
  ascending := .nil
  numbers x hx := by cases hx
  accepted a ha := by cases ha

theorem Feed.fresh_new (capacity : Nat) : (Feed.new capacity).Fresh := by
  intro a ha
  cases ha

/-- An accepted event goes to its place. -/
structure Feed.Accepts (s : Feed) (ev : Event) (s' : Feed) : Prop where
  history : s'.history = s.history.take (s.placeOf ev) ++ [⟨s.pushes, .event ev⟩]
  accepted : s'.accepted = s.accepted ++ [⟨s.placeOf ev, s.pushes, ev⟩]
  pushes : s'.pushes = s.pushes + 1
  popped : s'.popped = s.popped
  closed : s'.buffer.closed = false
  entries : s'.buffer.entries = s.buffer.entries.take (s.placeOf ev - s.popped) ++ [.event ev]
  place : s.popped ≤ s.placeOf ev ∧ s.placeOf ev ≤ s.history.length ∧
    s.history.length ≤ s.placeOf ev + 1
  replaced : s.buffer.coalesces ev ↔ s.placeOf ev + 1 = s.history.length

/-- What a step does to everything but the buffer's flags. -/
inductive Feed.Does (s : Feed) : Op → Feed → Prop
  | accepts (ev : Event) (s' : Feed) (h : s.Accepts ev s') : Does s (.event ev) s'
  | appends (line : String) (s' : Feed)
      (hhistory : s'.history = s.history ++ [⟨s.pushes, .response line⟩])
      (haccepted : s'.accepted = s.accepted) (hpopped : s'.popped = s.popped)
      (hpushes : s'.pushes = s.pushes + 1)
      (hentries : s'.buffer.entries = s.buffer.entries ++ [.response line]) :
      Does s (.response line) s'
  | pops (x : Outbound) (s' : Feed) (hhead : s.buffer.entries.head? = some x)
      (hhistory : s'.history = s.history)
      (haccepted : s'.accepted = s.accepted) (hpopped : s'.popped = s.popped + 1)
      (hpushes : s'.pushes = s.pushes)
      (hentries : s'.buffer.entries = s.buffer.entries.tail) : Does s .pop s'
  | nothing (op : Op) (buffer : Buffer) (hentries : buffer.entries = s.buffer.entries)
      (hcoalesces : ∀ ev, op = .event ev → ¬s.buffer.coalesces ev) : Does s op { s with buffer }

theorem Feed.Ok.length_entries (h : s.Ok) :
    s.buffer.entries.length + s.popped = s.history.length := by
  have hle := h.popped_le
  rw [← h.queued, List.length_map, List.length_drop]
  omega

theorem Feed.Ok.accepts (h : s.Ok) {ev : Event} (hopen : s.buffer.closed = false)
    (haccepted : (s.buffer.pushEvent ev).1 = true) : s.Accepts ev (s.step (.event ev)) := by
  have hlen := h.length_entries
  rcases hpush : s.buffer.pushEvent ev with ⟨_, buffer⟩
  rw [hpush] at haccepted
  cases haccepted
  have hstep : s.step (.event ev) =
      { s with
        buffer
        history := s.history.take (s.placeOf ev) ++ [⟨s.pushes, .event ev⟩]
        accepted := s.accepted ++ [⟨s.placeOf ev, s.pushes, ev⟩]
        pushes := s.pushes + 1 } := by simp only [Feed.step, hpush]
  rw [hstep]
  rcases s.buffer.pushEvent_cases ev with
      ⟨hclosed, -⟩ | ⟨hco, -, hopen', hentries⟩ | ⟨hco, -, hopen', hentries⟩ |
    ⟨-, hfalse, -⟩
  · simp [hopen] at hclosed
  · have hne := List.length_pos_iff.mpr (s.buffer.ne_nil_of_back hco.2.2)
    have hplace : s.placeOf ev = s.history.length - 1 := by simp [Feed.placeOf, hco.2.1, hco.2.2]
    rw [hpush] at hopen' hentries
    refine ⟨rfl, rfl, rfl, rfl, hopen', ?_, by omega, ?_⟩
    · rw [hplace, hentries, List.dropLast_eq_take]
      congr 2
      omega
    · exact iff_of_true hco (by omega)
  · have hplace : s.placeOf ev = s.history.length := by
      have hnot : ¬(ev.isBoardChanged = true ∧ s.buffer.backIsBoardChanged = true) :=
        fun hback => hco ⟨hopen, hback.1, hback.2⟩
      rw [Feed.placeOf, if_neg (by simpa using hnot)]
    rw [hpush] at hopen' hentries
    refine ⟨rfl, rfl, rfl, rfl, hopen', ?_, by have := h.popped_le; omega, ?_⟩
    · rw [hplace, hentries, List.take_of_length_le (by omega)]
    · exact iff_of_false hco (by omega)
  · rw [hpush] at hfalse
    cases hfalse

theorem Feed.Ok.does (h : s.Ok) (op : Op) : s.Does op (s.step op) := by
  cases op with
  | event ev =>
      rcases hpush : s.buffer.pushEvent ev with ⟨accepted, buffer⟩
      rcases s.buffer.pushEvent_cases ev with
          ⟨hclosed, hsame⟩ | ⟨hco, haccepted, -⟩ | ⟨-, haccepted, -⟩ |
        ⟨hco, hrejected, -, hentries⟩
      · rw [hpush] at hsame
        cases hsame
        have hstep : s.step (.event ev) = s := by simp [Feed.step, hpush]
        rw [hstep]
        refine .nothing _ s.buffer rfl ?_
        rintro _ ⟨⟩ hco
        simp [hco.1] at hclosed
      · exact .accepts ev _ (h.accepts hco.1 haccepted)
      · refine .accepts ev _ (h.accepts ?_ haccepted)
        cases hclosed : s.buffer.closed with
        | false => rfl
        | true => simp [Buffer.pushEvent, hclosed] at haccepted
      · rw [hpush] at hrejected hentries
        cases hrejected
        have hstep : s.step (.event ev) = { s with buffer } := by simp [Feed.step, hpush]
        rw [hstep]
        refine .nothing _ buffer hentries ?_
        rintro _ ⟨⟩
        exact hco
  | response line =>
      cases hpush : s.buffer.pushResponse line with
      | ok buffer =>
          obtain ⟨-, -, hentries, -⟩ := s.buffer.pushResponse_ok hpush
          refine .appends line _ ?_ ?_ ?_ ?_ ?_
          all_goals simp [Feed.step, hpush, hentries]
      | error returned =>
          have hstep : s.step (.response line) = s := by simp [Feed.step, hpush]
          rw [hstep]
          exact .nothing _ s.buffer rfl (by simp)
  | pop =>
      cases hhead : s.buffer.entries with
      | nil =>
          have hstep : s.step .pop = { s with buffer := s.buffer.pop.2 } := by
            simp [Feed.step, Buffer.pop, hhead]
          rw [hstep]
          exact .nothing _ _ (by simp [hhead]) (by simp)
      | cons x rest =>
          refine .pops x _ (by simp [hhead]) ?_ ?_ ?_ ?_ ?_
          all_goals simp [Feed.step, Buffer.pop, hhead]
  | close => exact .nothing _ _ rfl (by simp)

/-- An old entry keeps its place, or gives it to the new one. -/
theorem Feed.Accepts.get {ev : Event} {s' : Feed} (h : s.Accepts ev s') {place : Nat} {x : Entry}
    (hx : s.history[place]? = some x) :
    (place < s.placeOf ev ∧ s'.history[place]? = some x) ∨
      (place = s.placeOf ev ∧ place + 1 = s.history.length ∧
        s'.history[place]? = some ⟨s.pushes, .event ev⟩) := by
  obtain ⟨-, hle, hlast⟩ := h.place
  have hlt := (List.getElem?_eq_some_iff.mp hx).1
  have hlen : (s.history.take (s.placeOf ev)).length = s.placeOf ev := List.length_take_of_le hle
  rw [h.history]
  by_cases hplace : place < s.placeOf ev
  · refine .inl ⟨hplace, ?_⟩
    rw [List.getElem?_append_left (by omega), List.getElem?_take_of_lt hplace, hx]
  · have heq : place = s.placeOf ev := by omega
    refine .inr ⟨heq, by omega, ?_⟩
    rw [List.getElem?_append_right (by omega), hlen, heq, Nat.sub_self]
    rfl

theorem Feed.Ok.step (h : s.Ok) (op : Op) : (s.step op).Ok := by
  have hdoes := h.does op
  generalize s.step op = s' at hdoes
  cases hdoes with
  | accepts ev s' ha =>
      obtain ⟨hge, hle, -⟩ := ha.place
      have htake : ∀ y ∈ s.history.take (s.placeOf ev), y.number < s.pushes :=
        fun y hy => h.numbers y (List.mem_of_mem_take hy)
      refine
        { queued := ?_
          popped_le := by
            rw [ha.history, ha.popped, List.length_append, List.length_take_of_le hle]; omega
          ascending := ?_
          numbers := ?_
          accepted := ?_ }
      · rw [ha.history, ha.popped, ha.entries, ← h.queued, List.drop_append_of_le_length
          (by rw [List.length_take_of_le hle]; exact hge), List.map_append, List.drop_take,
            List.map_take]
        rfl
      · rw [ha.history, List.pairwise_append]
        refine ⟨h.ascending.sublist (List.take_sublist _ _), List.pairwise_singleton ..,
          fun y hy z hz => ?_⟩
        rw [List.mem_singleton.mp hz]
        exact htake y hy
      · intro y hy
        rw [ha.history] at hy
        rw [ha.pushes]
        rcases List.mem_append.mp hy with hy | hy
        · exact Nat.lt_succ_of_lt (htake y hy)
        · rw [List.mem_singleton.mp hy]
          exact Nat.lt_succ_self _
      · intro a hmem
        rw [ha.accepted] at hmem
        rw [ha.pushes]
        rcases List.mem_append.mp hmem with hmem | hmem
        · obtain ⟨hnumber, ⟨x, hx, hxa⟩, hbefore⟩ := h.accepted a hmem
          refine ⟨Nat.lt_succ_of_lt hnumber, ?_, fun y hy => hbefore y ?_⟩
          · rcases ha.get hx with ⟨-, hget⟩ | ⟨-, -, hget⟩
            · exact ⟨x, hget, hxa⟩
            · exact ⟨_, hget, Nat.le_of_lt hnumber⟩
          · have hplace : a.place ≤ s.placeOf ev := by
              rcases ha.get hx with ⟨hlt, -⟩ | ⟨heq, -⟩ <;> omega
            rw [ha.history, List.take_append_of_le_length
              (by rw [List.length_take_of_le hle]; exact hplace),
              List.take_take, Nat.min_eq_left hplace] at hy
            exact hy
        · rw [List.mem_singleton.mp hmem]
          have hlen : (s.history.take (s.placeOf ev)).length = s.placeOf ev :=
            List.length_take_of_le hle
          refine ⟨Nat.lt_succ_self _, ⟨⟨s.pushes, .event ev⟩, ?_, Nat.le_refl _⟩,
            fun y hy => htake y ?_⟩
          · rw [ha.history]
            simp [hlen]
          · rw [ha.history, List.take_left' hlen] at hy
            exact hy
  | appends line s' hhistory haccepted hpopped hpushes hentries =>
      refine
        { queued := by rw [hhistory, hpopped, hentries, ← h.queued,
          List.drop_append_of_le_length h.popped_le]; simp
          popped_le := by
            rw [hhistory, hpopped, List.length_append]; exact Nat.le_add_right_of_le h.popped_le
          ascending := ?_
          numbers := ?_
          accepted := ?_ }
      · rw [hhistory, List.pairwise_append]
        refine ⟨h.ascending, List.pairwise_singleton .., fun y hy z hz => ?_⟩
        rw [List.mem_singleton.mp hz]
        exact h.numbers y hy
      · intro y hy
        rw [hhistory] at hy
        rw [hpushes]
        rcases List.mem_append.mp hy with hy | hy
        · exact Nat.lt_succ_of_lt (h.numbers y hy)
        · rw [List.mem_singleton.mp hy]
          exact Nat.lt_succ_self _
      · intro a hmem
        rw [haccepted] at hmem
        obtain ⟨hnumber, ⟨x, hx, hxa⟩, hbefore⟩ := h.accepted a hmem
        have hlt := (List.getElem?_eq_some_iff.mp hx).1
        rw [hpushes, hhistory]
        refine ⟨Nat.lt_succ_of_lt hnumber, ⟨x, ?_, hxa⟩, fun y hy => hbefore y ?_⟩
        · rw [List.getElem?_append_left hlt, hx]
        · rwa [List.take_append_of_le_length hlt.le] at hy
  | pops x s' hhead hhistory haccepted hpopped hpushes hentries =>
      have hlen := h.length_entries
      have hpos : 0 < s.buffer.entries.length := by
        cases hrows : s.buffer.entries with
        | nil => simp [hrows] at hhead
        | cons y rest => simp
      refine
        { queued := by rw [hhistory, hpopped, hentries, ← h.queued, ← List.map_tail, List.tail_drop]
          popped_le := by rw [hhistory, hpopped]; omega
          ascending := hhistory ▸ h.ascending
          numbers := ?_
          accepted := ?_ }
      · rw [hhistory, hpushes]
        exact h.numbers
      · rw [hhistory, hpushes, haccepted]
        exact h.accepted
  | nothing op buffer hentries hcoalesces => exact { h with queued := h.queued.trans hentries.symm }

/-! ## Popping what is queued -/

theorem Feed.step_pop {x : Outbound} {rest : List Outbound} (h : s.buffer.entries = x :: rest) :
    s.step .pop = { s with buffer := s.buffer.pop.2, popped := s.popped + 1 } := by
  simp [Feed.step, Buffer.pop, h]

theorem Feed.run_pops (n : Nat) (h : s.buffer.entries.length = n) :
    (s.run (List.replicate n .pop)).history = s.history ∧
      (s.run (List.replicate n .pop)).popped = s.popped + n := by
  induction n generalizing s with
  | zero => exact ⟨rfl, rfl⟩
  | succ n ih =>
      cases hrows : s.buffer.entries with
      | nil => simp [hrows] at h
      | cons x rest =>
          have hlen : rest.length = n := by simpa [hrows] using h
          have hstep := Feed.step_pop hrows
          obtain ⟨hhistory, hpopped⟩ := @ih (s.step .pop) (by simp [hstep, hrows, hlen])
          rw [hstep] at hhistory hpopped
          simp only [List.replicate_succ, Feed.run, List.foldl_cons, hstep]
          exact ⟨hhistory, hpopped.trans (by simp only; omega)⟩

/-- When everything is popped, the whole history is delivered. -/
theorem Feed.Ok.delivered_drain (h : s.Ok) : s.drain.delivered = s.history := by
  obtain ⟨hhistory, hpopped⟩ := Feed.run_pops _ (rfl : s.buffer.entries.length = _)
  have hlen := h.length_entries
  rw [Feed.delivered, Feed.drain, hhistory, hpopped, List.take_of_length_le (by omega)]

/-! ## When no refresh is lost -/

theorem Feed.Ok.fresh_step (h : s.Ok) (hfresh : s.Fresh) (hcovers : s.Covers op) :
    (s.step op).Fresh := by
  have hdoes := h.does op
  generalize s.step op = s' at hdoes
  cases hdoes with
  | accepts ev s' ha =>
      intro a hmem b hscoped
      rw [ha.accepted] at hmem
      rcases List.mem_append.mp hmem with hmem | hmem
      · obtain ⟨x, hx, hrefreshes⟩ := hfresh a hmem b hscoped
        rcases ha.get hx with ⟨-, hget⟩ | ⟨hplace, hlast, hget⟩
        · exact ⟨x, hget, hrefreshes⟩
        · exact ⟨_, hget, hcovers (ha.replaced.mpr (hplace ▸ hlast)) a hmem hlast b hscoped⟩
      · rw [List.mem_singleton.mp hmem] at hscoped ⊢
        refine ⟨⟨s.pushes, .event ev⟩, ?_, refreshes_of_scopedTo hscoped⟩
        rw [ha.history]
        simp [List.length_take_of_le ha.place.2.1]
  | appends line s' hhistory haccepted hpopped hpushes hentries =>
      intro a hmem b hscoped
      rw [haccepted] at hmem
      obtain ⟨x, hx, hrefreshes⟩ := hfresh a hmem b hscoped
      refine ⟨x, ?_, hrefreshes⟩
      rw [hhistory, List.getElem?_append_left (List.getElem?_eq_some_iff.mp hx).1, hx]
  | pops x s' hhead hhistory haccepted hpopped hpushes hentries =>
      unfold Feed.Fresh
      rw [hhistory, haccepted]
      exact hfresh
  | nothing op buffer hentries hcoalesces => exact hfresh

theorem Feed.Ok.refreshedBy (h : s.Ok) (hfresh : s.Fresh) : s.RefreshedBy s.history := by
  intro a hmem b hscoped
  obtain ⟨x, hx, hrefreshes⟩ := hfresh a hmem b hscoped
  obtain ⟨-, ⟨x', hx', hnumber⟩, -⟩ := h.accepted a hmem
  rw [hx] at hx'
  cases hx'
  exact ⟨x, List.mem_of_getElem? hx, hnumber, hrefreshes⟩

/-- A step that replaces an entry it does not cover loses a refresh at once. -/
theorem Feed.Ok.lost (h : s.Ok) (hcovers : ¬s.Covers op) : ¬(s.step op).Refreshed := by
  have hok := h.step op
  have hdoes := h.does op
  rw [Feed.Refreshed, hok.delivered_drain]
  cases op with
  | event ev =>
      simp only [Feed.Covers, Classical.not_imp, not_forall] at hcovers
      obtain ⟨hco, a, hmem, hlast, b, hscoped, hnot⟩ := hcovers
      have ha : s.Accepts ev (s.step (.event ev)) := by
        generalize s.step (.event ev) = s' at hdoes ⊢
        cases hdoes with
        | accepts _ _ ha => exact ha
        | nothing _ buffer hentries hcoalesces => exact absurd hco (hcoalesces ev rfl)
      have hplace : a.place = s.placeOf ev := by
        have := ha.replaced.mp hco
        omega
      rintro (hclosed | hrefreshed)
      · rw [ha.closed] at hclosed
        cases hclosed
      · obtain ⟨x, hx, hnumber, hrefreshes⟩ :=
          hrefreshed a (by rw [ha.accepted]; simp [hmem]) b hscoped
        rw [ha.history] at hx
        rcases List.mem_append.mp hx with hx | hx
        · have hlt := (h.accepted a hmem).2.2 x (hplace ▸ hx)
          omega
        · rw [List.mem_singleton.mp hx] at hrefreshes
          exact hnot hrefreshes
  | _ => exact absurd trivial hcovers

theorem Feed.Ok.run (h : s.Ok) (ops : List Op) : (s.run ops).Ok := by
  induction ops generalizing s with
  | nil => exact h
  | cons op ops ih => exact ih (h.step op)

theorem Feed.Ok.fresh_run (h : s.Ok) (hfresh : s.Fresh) {ops : List Op}
    (hcovers : s.CoversAll ops) : (s.run ops).Fresh := by
  induction ops generalizing s with
  | nil => exact hfresh
  | cons op ops ih => exact ih (h.step op) (h.fresh_step hfresh hcovers.1) hcovers.2

theorem Feed.CoversAll.append {ops ops' : List Op} :
    s.CoversAll (ops ++ ops') ↔ s.CoversAll ops ∧ (s.run ops).CoversAll ops' := by
  induction ops generalizing s with
  | nil => simp [Feed.CoversAll, Feed.run]
  | cons op ops ih => simp [Feed.CoversAll, Feed.run, ih, and_assoc]

theorem Feed.Ok.coversAll_of_refreshed (h : s.Ok) {ops : List Op}
    (hall : ∀ pre, pre <+: ops → (s.run pre).Refreshed) : s.CoversAll ops := by
  induction ops generalizing s with
  | nil => trivial
  | cons op ops ih =>
      refine ⟨?_, ih (h.step op) fun pre hpre => hall (op :: pre)
        (List.cons_prefix_cons.mpr ⟨rfl, hpre⟩)⟩
      by_contra hcovers
      exact h.lost hcovers (hall [op] (List.cons_prefix_cons.mpr ⟨rfl, List.nil_prefix⟩))

/-- Accepted events are never forgotten. -/
theorem Feed.Ok.accepted_run (h : s.Ok) (ops : List Op) : s.accepted ⊆ (s.run ops).accepted := by
  induction ops generalizing s with
  | nil => exact List.Subset.refl _
  | cons op ops ih =>
      refine List.Subset.trans ?_ (ih (h.step op))
      have hdoes := h.does op
      generalize s.step op = s' at hdoes
      cases hdoes with
      | accepts ev s' ha => rw [ha.accepted]; exact List.subset_append_left _ _
      | appends line s' hhistory haccepted => rw [haccepted]; exact List.Subset.refl _
      | pops x s' hhead hhistory haccepted => rw [haccepted]; exact List.Subset.refl _
      | nothing op buffer => exact List.Subset.refl _

theorem refresh_delivered_iff_covered (capacity : Nat) (ops : List Op) :
    -- from every state of the run the subscriber gets its refreshes exactly when every step covers
    -- what it replaces
    ((∀ pre, pre <+: ops → ((Feed.new capacity).run pre).Refreshed) ↔
      (Feed.new capacity).CoversAll ops) ∧
    -- and then it has got those of what was accepted by then as soon as it has popped what was
    -- queued by then
    ((Feed.new capacity).CoversAll ops → ∀ pre, pre <+: ops →
      ((Feed.new capacity).run pre).history.length ≤ ((Feed.new capacity).run ops).popped →
        ((Feed.new capacity).run pre).RefreshedBy ((Feed.new capacity).run ops).delivered) := by
  have hok := Feed.ok_new capacity
  have hfresh := Feed.fresh_new capacity
  refine ⟨⟨fun hall => hok.coversAll_of_refreshed hall, fun hcovers pre hpre => ?_⟩,
    fun hcovers pre hpre hpopped => ?_⟩
  · obtain ⟨rest, rfl⟩ := hpre
    have hpreOk := hok.run pre
    rw [Feed.Refreshed, hpreOk.delivered_drain]
    exact .inr (hpreOk.refreshedBy (hok.fresh_run hfresh (Feed.CoversAll.append.mp hcovers).1))
  · obtain ⟨rest, rfl⟩ := hpre
    have hpreOk := hok.run pre
    have hendOk := hok.run (pre ++ rest)
    have hrun : (Feed.new capacity).run (pre ++ rest) = ((Feed.new capacity).run pre).run rest :=
      List.foldl_append ..
    intro a hmem b hscoped
    have hend : a ∈ ((Feed.new capacity).run (pre ++ rest)).accepted :=
      hrun ▸ hpreOk.accepted_run rest hmem
    obtain ⟨-, ⟨y, hy, -⟩, -⟩ := hpreOk.accepted a hmem
    have hplace := (List.getElem?_eq_some_iff.mp hy).1
    obtain ⟨x, hx, hrefreshes⟩ := hok.fresh_run hfresh hcovers a hend b hscoped
    obtain ⟨-, ⟨x', hx', hnumber⟩, -⟩ := hendOk.accepted a hend
    rw [hx] at hx'
    cases hx'
    refine ⟨x, List.mem_of_getElem? (i := a.place) ?_, hnumber, hrefreshes⟩
    rw [Feed.delivered, List.getElem?_take_of_lt (by omega), hx]

/-- The two events of a card that is transferred from board 1 to board 2. -/
def transferEvents : List Op :=
  [ .event (.boardChanged .cardMoved (some 1) (some 7) (some 3)),
    .event (.boardChanged .cardMoved (some 2) (some 7) (some 5)) ]

theorem transfer_source_refresh_lost : ¬((Feed.new 64).run transferEvents).Refreshed := by
  have hdelivered : ((Feed.new 64).run transferEvents).drain.delivered =
      [⟨1, .event (.boardChanged .cardMoved (some 2) (some 7) (some 5))⟩] := by decide
  have haccepted : ⟨0, 0, .boardChanged .cardMoved (some 1) (some 7) (some 3)⟩ ∈
      ((Feed.new 64).run transferEvents).accepted := by decide
  rintro (hclosed | hrefreshed)
  · exact absurd hclosed (by decide)
  · obtain ⟨x, hx, -, hrefreshes⟩ := hrefreshed _ haccepted 1 rfl
    rw [hdelivered, List.mem_singleton] at hx
    subst hx
    simp [Outbound.refreshes, Event.refreshes] at hrefreshes

end HerdrBoard.Server
