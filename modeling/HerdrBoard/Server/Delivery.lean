import HerdrBoard.Lib.Runs
import HerdrBoard.Server.Buffer

/-!
# Delivery of the outbound buffer

A buffer with what was pushed to it and popped from it so far. What is popped and what still waits
is what was accepted, with the board changes that waited side by side coalesced. -/

namespace HerdrBoard.Server

open Lib

inductive Buffer.Op where
  | pushResponse (line : String)
  | pushEvent (event : Event)
  | pop
  deriving DecidableEq

/-- A push that was accepted. -/
structure AcceptedPush where
  item : Outbound
  /-- The push before it had left the queue. -/
  onEmpty : Bool

/-- Both are board changes, and the earlier one waited when the later one was pushed next to it. -/
def AcceptedPush.adjacent (x y : AcceptedPush) : Bool :=
  x.item.isBoardChanged && y.item.isBoardChanged && !y.onEmpty

structure Delivery where
  buffer : Buffer
  accepted : List AcceptedPush
  popped : List Outbound

namespace Delivery

def start (capacity : Nat) : Delivery := { buffer := .new capacity, accepted := [], popped := [] }

variable (d : Delivery)

def accept (x : Outbound) (b : Buffer) : Delivery :=
  { d with
    buffer := b, accepted := d.accepted ++ [{ item := x, onEmpty := d.buffer.entries.isEmpty }] }

def step : Buffer.Op → Delivery
  | .pushResponse line =>
      match d.buffer.pushResponse line with
      | .ok b => d.accept (.response line) b
      | .error _ => d
  | .pushEvent event =>
      match d.buffer.pushEvent event with
      | (true, b) => d.accept (.event event) b
      | (false, b) => { d with buffer := b }
  | .pop => { d with buffer := d.buffer.pop.2, popped := d.popped ++ d.buffer.pop.1.toList }

def run (ops : List Buffer.Op) : Delivery := ops.foldl step d

@[simp] theorem run_nil : d.run [] = d := rfl
@[simp] theorem run_cons (op : Buffer.Op) (ops : List Buffer.Op) :
    d.run (op :: ops) = (d.step op).run ops := rfl

/-- What left the queue and what waits in it. -/
def delivered : List Outbound := d.popped ++ d.buffer.entries

/-- The accepted pushes of which no later one took the place. -/
def coalesced : List Outbound := (lastOfRuns AcceptedPush.adjacent d.accepted).map AcceptedPush.item

/-! ## What a step does -/

/-- A step accepts nothing, appends what it accepts, or puts it in the place of the last entry. -/
inductive Does (d : Delivery) : Buffer.Op → Delivery → Prop where
  | nothing {op d'} (hbuffer : d'.buffer.entries = d.buffer.entries)
      (haccepted : d'.accepted = d.accepted) (hpopped : d'.popped = d.popped) : Does d op d'
  | appends {op x b} (hnew : d.buffer.entries = [] ∨ x.isBoardChanged = false ∨
      d.buffer.backIsBoardChanged = false)
      (hentries : b.entries = d.buffer.entries ++ [x]) : Does d op (d.accept x b)
  | replaces {op x b} (hx : x.isBoardChanged = true) (hback : d.buffer.backIsBoardChanged = true)
      (hentries : b.entries = d.buffer.entries.dropLast ++ [x]) : Does d op (d.accept x b)
  | pops : Does d .pop (d.step .pop)

theorem closed_of_pushEvent {b b' : Buffer} {event : Event} (h : b.pushEvent event = (true, b')) :
    b.closed = false := by
  cases hclosed : b.closed with
  | false => rfl
  | true => simp [Buffer.pushEvent, hclosed] at h

theorem does_step (op : Buffer.Op) : d.Does op (d.step op) := by
  cases op with
  | pushResponse line =>
      cases hpush : d.buffer.pushResponse line with
      | ok b =>
          simp only [step, hpush]
          exact .appends (.inr (.inl rfl)) (d.buffer.pushResponse_ok hpush).2.2.1
      | error _ =>
          simp only [step, hpush]
          exact .nothing rfl rfl rfl
  | pushEvent event =>
      have hcases := d.buffer.pushEvent_cases event
      cases hpush : d.buffer.pushEvent event with
      | mk taken b =>
          rw [hpush] at hcases
          cases taken with
          | true =>
              have hopen := closed_of_pushEvent hpush
              simp only [step, hpush]
              rcases hcases with ⟨-, heq⟩ | ⟨hco, -, -, hentries⟩ | ⟨hco, -, -,
                  hentries⟩ | ⟨-, hno, -⟩
              · cases heq
              · exact .replaces hco.2.1 hco.2.2 hentries
              · refine .appends (.inr ?_) hentries
                simpa only [Buffer.coalesces, Outbound.isBoardChanged, hopen, true_and, not_and_or,
                  Bool.not_eq_true] using hco
              · cases hno
          | false =>
              simp only [step, hpush]
              rcases hcases with ⟨-, heq⟩ | ⟨-, hno, -⟩ | ⟨-, hno, -⟩ | ⟨-, -, -, hentries⟩
              · cases heq
                exact .nothing rfl rfl rfl
              · cases hno
              · cases hno
              · exact .nothing hentries rfl rfl
  | pop => exact .pops

/-! ## The delivery law -/

/-- The entries that were delivered are those accepted, coalesced, and what waits last was
accepted last. -/
structure Law (d : Delivery) : Prop where
  coalesces : d.delivered = d.coalesced
  back : d.buffer.entries ≠ [] →
    d.buffer.entries.getLast? = d.accepted.getLast?.map AcceptedPush.item

theorem law_start (capacity : Nat) : (start capacity).Law where
  coalesces := by simp [delivered, coalesced, start]
  back h := absurd rfl h

theorem getLast?_item_eq {d : Delivery} (h : d.Law) {x : AcceptedPush}
    (hx : x ∈ d.accepted.getLast?)
    (hne : d.buffer.entries ≠ []) : d.buffer.entries.getLast? = some x.item := by
  rw [h.back hne, hx]
  rfl

theorem coalesced_accept (x : Outbound) (b : Buffer) :
    (d.accept x b).coalesced =
      (lastOfRuns AcceptedPush.adjacent
        (d.accepted ++ [{ item := x, onEmpty := d.buffer.entries.isEmpty }])).map
        AcceptedPush.item := rfl

theorem law_accept_new {x : Outbound} {b : Buffer} (h : d.Law)
    (hnew : d.buffer.entries = [] ∨ x.isBoardChanged = false ∨ d.buffer.backIsBoardChanged = false)
    (hentries : b.entries = d.buffer.entries ++ [x]) : (d.accept x b).Law := by
  refine ⟨?_, fun _ => by simp [accept, hentries]⟩
  have hruns : ∀ y ∈ d.accepted.getLast?,
      AcceptedPush.adjacent y { item := x, onEmpty := d.buffer.entries.isEmpty } = false := by
    intro y hy
    rcases hnew with hempty | hx | hback
    · simp [AcceptedPush.adjacent, hempty]
    · simp [AcceptedPush.adjacent, hx]
    · by_cases hempty : d.buffer.entries = []
      · simp [AcceptedPush.adjacent, hempty]
      · have hyback := getLast?_item_eq h hy hempty
        have hychange : y.item.isBoardChanged = false := by
          simpa [Buffer.backIsBoardChanged, hyback] using hback
        simp [AcceptedPush.adjacent, hychange]
  have hold := h.coalesces
  rw [coalesced_accept, lastOfRuns_concat_of_new hruns, List.map_append]
  change d.popped ++ b.entries = d.coalesced ++ [x]
  rw [hentries, ← hold, delivered, List.append_assoc]

theorem law_accept_replacing {x : Outbound} {b : Buffer} (h : d.Law) (hx : x.isBoardChanged = true)
    (hback : d.buffer.backIsBoardChanged = true)
    (hentries : b.entries = d.buffer.entries.dropLast ++ [x]) : (d.accept x b).Law := by
  refine ⟨?_, fun _ => by simp [accept, hentries]⟩
  have hne := d.buffer.ne_nil_of_back hback
  obtain ⟨y, hy⟩ : ∃ y, y ∈ d.accepted.getLast? := by
    have hlast := h.back hne
    rw [List.getLast?_eq_some_getLast hne] at hlast
    obtain ⟨y, hy, -⟩ := Option.map_eq_some_iff.mp hlast.symm
    exact ⟨y, hy⟩
  have hyback := getLast?_item_eq h hy hne
  have hruns : AcceptedPush.adjacent y
      { item := x, onEmpty := d.buffer.entries.isEmpty } = true := by
    have hychange : y.item.isBoardChanged = true := by
      simpa [Buffer.backIsBoardChanged, hyback] using hback
    simp [AcceptedPush.adjacent, hychange, hx, hne]
  have hold := h.coalesces
  rw [coalesced_accept, lastOfRuns_concat_of_related hy hruns, List.map_append, List.map_dropLast]
  change d.popped ++ b.entries = d.coalesced.dropLast ++ [x]
  rw [hentries, ← hold, delivered, List.dropLast_append_of_ne_nil hne, List.append_assoc]

theorem law_pop (h : d.Law) : (d.step .pop).Law := by
  cases hentries : d.buffer.entries with
  | nil =>
      have hpop : (d.step .pop).delivered = d.delivered := by simp [delivered, step, hentries]
      exact ⟨hpop.trans h.coalesces, fun hne => absurd (by simp [step, hentries]) hne⟩
  | cons x rest =>
      have hpop : (d.step .pop).delivered = d.delivered := by simp [delivered, step, hentries]
      refine ⟨hpop.trans h.coalesces, fun hne => ?_⟩
      have hrest : rest ≠ [] := by simpa [step, hentries] using hne
      have hlast := h.back (by simp [hentries])
      rw [hentries, List.getLast?_cons_of_ne_nil hrest] at hlast
      simpa [step, hentries] using hlast

theorem Law.step {d : Delivery} (h : d.Law) (op : Buffer.Op) : (d.step op).Law := by
  have hdoes := d.does_step op
  generalize d.step op = d' at hdoes ⊢
  cases hdoes with
  | nothing hbuffer haccepted hpopped =>
      refine ⟨?_, ?_⟩
      · rw [delivered, coalesced, hbuffer, haccepted, hpopped]
        exact h.coalesces
      · rw [hbuffer, haccepted]
        exact h.back
  | appends hnew hentries => exact d.law_accept_new h hnew hentries
  | replaces hx hback hentries => exact d.law_accept_replacing h hx hback hentries
  | pops => exact d.law_pop h

theorem Law.run {d : Delivery} (h : d.Law) (ops : List Buffer.Op) : (d.run ops).Law := by
  induction ops generalizing d with
  | nil => exact h
  | cons op ops ih => exact ih (h.step op)

/-! ## Capacity and close -/

theorem capacity_step (op : Buffer.Op) : (d.step op).buffer.capacity = d.buffer.capacity := by
  cases op with
  | pushResponse line =>
      unfold step Buffer.pushResponse
      by_cases hroom : d.buffer.closed = false ∧
          d.buffer.full = false <;> simp [hroom, accept, Buffer.pushBack]
  | pushEvent event =>
      unfold step Buffer.pushEvent
      by_cases hclosed : d.buffer.closed = true
      · simp [hclosed]
      · by_cases hback : event.isBoardChanged = true ∧ d.buffer.backIsBoardChanged = true
        · simp [hclosed, hback, accept, Buffer.replaceBack, Buffer.logPressure]
        · by_cases hfull : d.buffer.full = false
          · simp [hclosed, hback, hfull, accept, Buffer.pushBack]
          · simp [hclosed, hback, hfull, Buffer.logPressure, Buffer.close]
  | pop => rfl

theorem capacity_run (ops : List Buffer.Op) : (d.run ops).buffer.capacity = d.buffer.capacity := by
  induction ops generalizing d with
  | nil => rfl
  | cons op ops ih => exact (ih (d.step op)).trans (d.capacity_step op)

/-- An event for which there is no room closes the buffer unless it takes the place of
the last entry. -/
theorem step_pushEvent_of_full {event : Event} (hopen : d.buffer.closed = false)
    (hfull : d.buffer.full = true) (hnot : ¬d.buffer.coalesces event) :
    (d.step (.pushEvent event)).buffer.closed = true ∧
    (d.step (.pushEvent event)).accepted = d.accepted := by
  have hback : ¬(event.isBoardChanged = true ∧ d.buffer.backIsBoardChanged = true) :=
    fun h => hnot ⟨hopen, h⟩
  simp [step, Buffer.pushEvent, hopen, hfull, hback, Buffer.close]

variable {d} (hclosed : d.buffer.closed = true)

include hclosed

theorem step_of_closed (op : Buffer.Op) :
    (d.step op).buffer.closed = true ∧ (d.step op).accepted = d.accepted ∧
      (d.step op).buffer.entries = d.buffer.entries.drop ([op].count .pop) := by
  cases op with
  | pushResponse line => simp [step, Buffer.pushResponse, hclosed]
  | pushEvent event => simp [step, Buffer.pushEvent, hclosed]
  | pop => simp [step, hclosed]

theorem run_of_closed (ops : List Buffer.Op) :
    (d.run ops).buffer.closed = true ∧ (d.run ops).accepted = d.accepted ∧
      (d.run ops).buffer.entries = d.buffer.entries.drop (ops.count .pop) := by
  induction ops generalizing d with
  | nil => simp [hclosed]
  | cons op ops ih =>
      obtain ⟨hstill, haccepted, hentries⟩ := step_of_closed hclosed op
      obtain ⟨hrun, hsame, hrest⟩ := ih hstill
      refine ⟨hrun, hsame.trans haccepted, ?_⟩
      rw [run_cons, hrest, hentries, List.drop_drop, ← List.count_append, List.singleton_append]

/-- Everything accepted before the close is popped once there were as many pops as entries. -/
theorem drained_of_closed (h : d.Law) {ops : List Buffer.Op}
    (hpops : d.buffer.entries.length ≤ ops.count .pop) : (d.run ops).popped = d.coalesced := by
  obtain ⟨-, haccepted, hentries⟩ := run_of_closed hclosed ops
  have hlaw := (h.run ops).coalesces
  rw [delivered, hentries, List.drop_eq_nil_of_le hpops, List.append_nil, coalesced, haccepted]
    at hlaw
  exact hlaw

end Delivery

theorem Delivery.step_pushResponse_of_room (d : Delivery) (line : String)
    (hopen : d.buffer.closed = false) (hroom : d.buffer.full = false) :
    (d.step (.pushResponse line)).accepted.map AcceptedPush.item =
      d.accepted.map AcceptedPush.item ++ [.response line] := by
  simp [Delivery.step, Delivery.accept, Buffer.pushResponse, hopen, hroom]

theorem Delivery.step_pushEvent_of_room (d : Delivery) (event : Event)
    (hopen : d.buffer.closed = false) (hroom : d.buffer.full = false ∨ d.buffer.coalesces event) :
    (d.step (.pushEvent event)).accepted.map AcceptedPush.item = d.accepted.map AcceptedPush.item ++
      [.event event] := by
  by_cases hback : event.isBoardChanged = true ∧ d.buffer.backIsBoardChanged = true
  · simp [Delivery.step, Delivery.accept, Buffer.pushEvent, hopen, hback]
  · have hfull : d.buffer.full = false := hroom.resolve_right fun hco => hback hco.2
    simp [Delivery.step, Delivery.accept, Buffer.pushEvent, hopen, hback, hfull]

/-- The delivery law of the outbound buffer. A push onto a queue that is not empty stands next to
the accepted push before it. -/
theorem buffer_delivers (capacity : Nat) (ops : List Buffer.Op) :
    ((Delivery.start capacity).run ops).buffer.entries.length ≤ capacity ∧
    ((Delivery.start capacity).run ops).delivered = ((Delivery.start capacity).run ops).coalesced ∧
    ((Delivery.start capacity).run ops).delivered.filter (!·.isBoardChanged) =
      (((Delivery.start capacity).run ops).accepted.map AcceptedPush.item).filter
        (!·.isBoardChanged) ∧
    (((Delivery.start capacity).run ops).buffer.entries ≠ [] →
      ((Delivery.start capacity).run ops).buffer.entries.getLast? =
        ((Delivery.start capacity).run ops).accepted.getLast?.map AcceptedPush.item) ∧
    -- an open buffer accepts what it has room for or coalesces
    (((Delivery.start capacity).run ops).buffer.closed = false →
      (∀ line, ((Delivery.start capacity).run ops).buffer.full = false →
        (((Delivery.start capacity).run ops).step (.pushResponse line)).accepted.map
          AcceptedPush.item =
          ((Delivery.start capacity).run ops).accepted.map AcceptedPush.item ++ [.response line]) ∧
      ∀ event, ((Delivery.start capacity).run ops).buffer.full = false ∨
          ((Delivery.start capacity).run ops).buffer.coalesces event →
        (((Delivery.start capacity).run ops).step (.pushEvent event)).accepted.map
          AcceptedPush.item =
          ((Delivery.start capacity).run ops).accepted.map AcceptedPush.item ++ [.event event]) ∧
    (∀ event, ((Delivery.start capacity).run ops).buffer.closed = false →
      ((Delivery.start capacity).run ops).buffer.full = true →
      ¬((Delivery.start capacity).run ops).buffer.coalesces event →
        (((Delivery.start capacity).run ops).step (.pushEvent event)).buffer.closed = true) ∧
    (((Delivery.start capacity).run ops).buffer.closed = true → ∀ later : List Buffer.Op,
      (((Delivery.start capacity).run ops).run later).accepted =
        ((Delivery.start capacity).run ops).accepted ∧
      (((Delivery.start capacity).run ops).buffer.entries.length ≤ later.count .pop →
        (((Delivery.start capacity).run ops).run later).popped =
          ((Delivery.start capacity).run ops).coalesced)) := by
  have hlaw := (Delivery.law_start capacity).run ops
  have hcapacity := Delivery.capacity_run (.start capacity) ops
  generalize (Delivery.start capacity).run ops = d at hlaw hcapacity
  refine ⟨?_, hlaw.coalesces, ?_, hlaw.back, fun hopen => ⟨?_, ?_⟩, ?_, ?_⟩
  · have hbounded := d.buffer.bounded
    rw [hcapacity] at hbounded
    exact hbounded
  · rw [hlaw.coalesces, Delivery.coalesced, List.filter_map, List.filter_map, filter_lastOfRuns]
    intro x y hxy
    simp only [AcceptedPush.adjacent, Bool.and_eq_true] at hxy
    simp [hxy.1.1]
  · intro line hroom
    exact d.step_pushResponse_of_room line hopen hroom
  · intro event hroom
    exact d.step_pushEvent_of_room event hopen hroom
  · intro event hopen hfull hnot
    exact (d.step_pushEvent_of_full hopen hfull hnot).1
  · intro hclosed later
    exact ⟨(Delivery.run_of_closed hclosed later).2.1,
      fun hpops => Delivery.drained_of_closed hclosed hlaw hpops⟩

def boardChange (reason : BoardChangedReason) : Event := .boardChanged reason (some 1) none none

/-- Two board changes side by side and a response, in a buffer of two. -/
def twoChanges : List Buffer.Op :=
  [.pushEvent (boardChange .cardMoved), .pushEvent (boardChange .cardUpdated), .pushResponse "ok"]

/-- The later change is delivered, then the response; the event that does not fit
closes the buffer. -/
theorem buffer_delivers_two :
    ((Delivery.start 2).run twoChanges).delivered =
      [.event (boardChange .cardUpdated), .response "ok"] ∧
      (((Delivery.start 2).run twoChanges).step (.pushEvent (.runEnded 1 1 .ok))).buffer.closed =
        true := by
  obtain ⟨-, hdelivered, -, -, -, hcloses, -⟩ := buffer_delivers 2 twoChanges
  refine ⟨hdelivered.trans (by decide), hcloses (.runEnded 1 1 .ok) (by decide) (by decide) ?_⟩
  rintro ⟨-, hchange, -⟩
  cases hchange

end HerdrBoard.Server
