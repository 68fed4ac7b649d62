import HerdrBoard.Core.Model
import Mathlib.Data.List.Basic

/-!
# The outbound buffer of a connection

Responses and events wait in one bounded queue for the writer. Adjacent board changes are coalesced.
-/

open HerdrBoard.Core

namespace HerdrBoard.Server

inductive BoardChangedReason where
  | cardMoved | cardCreated | cardUpdated | cardDeleted | cardArchived | columnChanged
  | commentAdded
  | runStarted | runEnded | runBlocked | boardArchived | boardRestored | projectArchived
  | projectRestored deriving DecidableEq

/-- Streamed to subscribers. -/
inductive Event where
  /-- Without a `boardId` the change is coarse: subscribers refetch whatever boards they hold. -/
  | boardChanged (reason : BoardChangedReason) (boardId cardId columnId : Option Int)
  | runEnded (cardId runId : Int) (outcome : RunOutcome)
  | localStateChanged (space : Option String) (snapshot : Bool)
  deriving DecidableEq

inductive Outbound where
  | response (line : String)
  | event (ev : Event)
  deriving DecidableEq

def Event.isBoardChanged : Event → Bool
  | .boardChanged .. => true
  | _ => false

def Outbound.isBoardChanged : Outbound → Bool
  | .event ev => ev.isBoardChanged
  | .response _ => false

structure Buffer where
  entries : List Outbound
  capacity : Nat
  closed : Bool
  pressureLogged : Bool
  bounded : entries.length ≤ capacity

namespace Buffer

def new (capacity : Nat) : Buffer where
  entries := []
  capacity
  closed := false
  pressureLogged := false
  bounded := Nat.zero_le _

variable (b : Buffer)

def full : Bool := b.entries.length == b.capacity

theorem length_lt (h : b.full = false) : b.entries.length < b.capacity :=
  Nat.lt_of_le_of_ne b.bounded (by simpa [full] using h)

/-- Append an entry to a buffer with room. -/
def pushBack (x : Outbound) (h : b.full = false) : Buffer :=
  { b with
    entries := b.entries ++ [x]
    bounded := by
      have hlt := b.length_lt h
      simp only [List.length_append, List.length_singleton]
      omega }

/-- Put an entry in the place of the last one. -/
def replaceBack (x : Outbound) (h : b.entries ≠ []) : Buffer :=
  { b with
    entries := b.entries.dropLast ++ [x]
    bounded := by
      have hpos := List.length_pos_iff.mpr h
      have hle := b.bounded
      simp only [List.length_append, List.length_dropLast, List.length_singleton]
      omega }

/-- The line comes back when the buffer is closed or full. -/
def pushResponse (line : String) : Except String Buffer :=
  if h : b.closed = false ∧
    b.full = false then .ok (b.pushBack (.response line) h.2) else .error line

def logPressure : Buffer := { b with pressureLogged := true }

def close : Buffer := { b with closed := true }

/-- Whether the last entry is a board change that a further one replaces. -/
def backIsBoardChanged : Bool := b.entries.getLast?.any Outbound.isBoardChanged

theorem ne_nil_of_back (h : b.backIsBoardChanged = true) : b.entries ≠ [] := by
  intro hnil
  simp [backIsBoardChanged, hnil] at h

def pushEvent (event : Event) : Bool × Buffer :=
  if b.closed then (false, b)
  else if h : event.isBoardChanged = true ∧ b.backIsBoardChanged = true then
    (true, (b.replaceBack (.event event) (b.ne_nil_of_back h.2)).logPressure)
  else if h : b.full = false then (true, b.pushBack (.event event) h)
  else (false, b.logPressure.close)

def pop : Option Outbound × Buffer :=
  (b.entries.head?,
    { b with
      entries := b.entries.tail
      pressureLogged := if b.entries.tail = [] then false else b.pressureLogged
      bounded := by
        have hle := b.bounded
        simp only [List.length_tail]
        omega })

@[simp] theorem new_entries (n : Nat) : (new n).entries = [] := rfl
@[simp] theorem new_closed (n : Nat) : (new n).closed = false := rfl
@[simp] theorem close_entries : b.close.entries = b.entries := rfl
@[simp] theorem close_closed : b.close.closed = true := rfl
@[simp] theorem pop_entries : b.pop.2.entries = b.entries.tail := rfl
@[simp] theorem pop_closed : b.pop.2.closed = b.closed := rfl
@[simp] theorem pop_item : b.pop.1 = b.entries.head? := rfl

/-- Whether pushing the event replaces the last entry. -/
def coalesces (event : Event) : Prop :=
  b.closed = false ∧ event.isBoardChanged = true ∧ b.backIsBoardChanged = true

/-- What a pushed event does: nothing after the close, else it replaces the last entry, is
appended, or closes. -/
theorem pushEvent_cases (event : Event) :
    (b.closed = true ∧ b.pushEvent event = (false, b)) ∨
    (b.coalesces event ∧ (b.pushEvent event).1 = true ∧ (b.pushEvent event).2.closed = false ∧
      (b.pushEvent event).2.entries = b.entries.dropLast ++ [.event event]) ∨
    (¬b.coalesces event ∧ (b.pushEvent event).1 = true ∧ (b.pushEvent event).2.closed = false ∧
      (b.pushEvent event).2.entries = b.entries ++ [.event event]) ∨
    (¬b.coalesces event ∧ (b.pushEvent event).1 = false ∧ (b.pushEvent event).2.closed = true ∧
      (b.pushEvent event).2.entries = b.entries) := by
  unfold pushEvent
  cases hclosed : b.closed with
  | true => exact .inl ⟨rfl, rfl⟩
  | false =>
      refine .inr ?_
      by_cases hback : event.isBoardChanged = true ∧ b.backIsBoardChanged = true
      · simp [coalesces, hclosed, hback, replaceBack, logPressure]
      · refine .inr ?_
        by_cases hfull : b.full = false
        · simp [coalesces, hclosed, hback, hfull, pushBack]
        · simp [coalesces, hclosed, hback, hfull, logPressure, close]

theorem pushResponse_ok {line : String} {b' : Buffer} (h : b.pushResponse line = .ok b') :
    b.closed = false ∧ b.full = false ∧ b'.entries = b.entries ++ [.response line] ∧
    b'.closed = b.closed := by
  unfold pushResponse at h
  split at h
  · next hroom =>
      cases h
      exact ⟨hroom.1, hroom.2, rfl, rfl⟩
  · cases h

theorem pushResponse_error {line : String} :
    (∃ returned, b.pushResponse line = .error returned) ↔ b.closed = true ∨ b.full = true := by
  unfold pushResponse
  by_cases hroom : b.closed = false ∧ b.full = false
  · simp [hroom]
  · simp only [hroom, dif_neg, not_false_eq_true, Except.error.injEq, exists_eq', true_iff]
    simpa only [not_and_or, Bool.not_eq_false] using hroom

end Buffer

end HerdrBoard.Server
