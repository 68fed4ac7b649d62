import HerdrBoard.Server.Buffer
import HerdrBoard.Lib.Transition
import Mathlib.Logic.Function.Basic

/-!
# The outbox of a connection

The tasks that share the buffer, between their awaits: each takes the buffer's lock, works and
releases it. The lock is not re-entrant, and a guard in the scrutinee of a match is held to the end
of the match. -/

namespace HerdrBoard.Server

open Lib

/-- What a task calls. -/
inductive Call where
  | response (line : String)
  | event (ev : Event)
  | next
  | close

inductive Returned where
  | response (sent : Bool)
  | event (accepted : Bool)
  | next (item : Option Outbound)
  | close

/-- Where a task is. `since` numbers the wakeups it has seen when it made its `notified` future. -/
inductive Pc where
  | idle
  | responseLock (line : String) (since : Nat)
  | responsePush (line : String) (since : Nat)
  /-- In the `Err` arm: it holds the guard of the scrutinee, and awaits the lock to
  read `closed`. -/
  | responseRelock (line : String) (since : Nat)
  | responseClosed (line : String) (since : Nat)
  | responseWait (line : String) (since : Nat)
  | responseParked (line : String)
  | eventLock (ev : Event)
  | eventPush (ev : Event)
  | eventNotify (accepted : Bool)
  | nextLock (since : Nat)
  | nextPop (since : Nat)
  | nextWait (since : Nat)
  | nextParked
  | closeLock
  | closeSet
  | closeNotify
  | done (r : Returned)

namespace Pc

/-- The point after the lock is taken. -/
def locked : Pc → Option Pc
  | .responseLock line since => some (.responsePush line since)
  | .responseRelock line since => some (.responseClosed line since)
  | .eventLock ev => some (.eventPush ev)
  | .nextLock since => some (.nextPop since)
  | .closeLock => some .closeSet
  | _ => none

def awaitsLock (p : Pc) : Bool := p.locked.isSome

def holdsLock : Pc → Bool
  | .responsePush .. | .responseRelock .. | .responseClosed .. | .eventPush _ | .nextPop _
  | .closeSet => true
  | _ => false

end Pc

/-- The buffer and its lock, the `Notify`, the tasks, and what was offered and popped so far. -/
structure Outbox (τ : Type) where
  buffer : Buffer
  holder : Option τ
  permit : Bool
  wakeups : Nat
  waiting : List τ
  pc : τ → Pc
  offered : List String
  popped : List Outbound

inductive Step (τ : Type) where
  | call (t : τ) (c : Call)
  | lock (t : τ)
  /-- What the holder of the lock does with it. -/
  | run (t : τ)
  | notify (t : τ)
  | poll (t : τ)
  | return (t : τ)
  | abort (t : τ)

namespace Outbox

variable {τ : Type}

def new (capacity : Nat) : Outbox τ where
  buffer := .new capacity
  holder := none
  permit := false
  wakeups := 0
  waiting := []
  pc _ := .idle
  offered := []
  popped := []

variable (s : Outbox τ)

def notifyOne : Outbox τ :=
  match s.waiting with
  | [] => { s with permit := true }
  | _ :: waiting => { s with waiting }

def notifyWaiters : Outbox τ := { s with wakeups := s.wakeups + 1, waiting := [] }

@[simp] theorem notifyOne_pc : s.notifyOne.pc = s.pc := by unfold notifyOne; split <;> rfl
@[simp] theorem notifyOne_holder : s.notifyOne.holder = s.holder := by
  unfold notifyOne; split <;> rfl
@[simp] theorem notifyOne_buffer : s.notifyOne.buffer = s.buffer := by
  unfold notifyOne; split <;> rfl
@[simp] theorem notifyOne_offered : s.notifyOne.offered = s.offered := by
  unfold notifyOne; split <;> rfl
@[simp] theorem notifyOne_popped : s.notifyOne.popped = s.popped := by
  unfold notifyOne; split <;> rfl

variable [DecidableEq τ]

def goto (t : τ) (p : Pc) : Outbox τ := { s with pc := Function.update s.pc t p }

def release (t : τ) (p : Pc) : Outbox τ := { s.goto t p with holder := none }

/-- The point a call starts at. -/
def start : Call → Pc
  | .response line => .responseLock line s.wakeups
  | .event ev => .eventLock ev
  | .next => .nextLock s.wakeups
  | .close => .closeLock

def runHolder (t : τ) : Outbox τ :=
  match s.pc t with
  | .responsePush line since =>
      let s := { s with offered := s.offered ++ [line] }
      match s.buffer.pushResponse line with
      | .ok buffer => { (s.release t (.done (.response true))) with buffer }.notifyOne
      | .error line => s.goto t (.responseRelock line since)
  | .responseClosed line since =>
      if s.buffer.closed then s.release t (.done (.response false))
        else s.release t (.responseWait line since)
  | .eventPush ev =>
      let pushed := s.buffer.pushEvent ev
      { (s.release t (.eventNotify pushed.1)) with buffer := pushed.2 }
  | .nextPop since =>
      match s.buffer.pop with
      | (some item, buffer) =>
          { (s.release t (.done (.next (some item)))) with
            buffer, popped := s.popped ++ [item] }.notifyWaiters
      | (none, buffer) =>
          if buffer.closed then { (s.release t (.done (.next none))) with buffer }
          else { (s.release t (.nextWait since)) with buffer }
  | .closeSet => { (s.release t .closeNotify) with buffer := s.buffer.close }
  | _ => s

/-- Awaiting the `notified` future: go back to the head of the loop, or wait. -/
def pollNotified (t : τ) (since : Nat) (again parked : Pc) : Outbox τ :=
  if since < s.wakeups then s.goto t again
  else if s.permit then { (s.goto t again) with permit := false }
  else { (s.goto t parked) with waiting := s.waiting ++ [t] }

/-- A step that is not possible leaves everything as it is. -/
def next : Step τ → Outbox τ
  | .call t c =>
      match s.pc t with
      | .idle => s.goto t (s.start c)
      | _ => s
  | .lock t =>
      if s.holder.isNone then
        match (s.pc t).locked with
        | some p => { s.goto t p with holder := some t }
        | none => s
      else s
  | .run t => s.runHolder t
  | .notify t =>
      match s.pc t with
      | .eventNotify accepted => (s.goto t (.done (.event accepted))).notifyWaiters
      | .closeNotify => (s.goto t (.done .close)).notifyWaiters
      | _ => s
  | .poll t =>
      match s.pc t with
      | .responseWait line since =>
          s.pollNotified t since (.responseLock line s.wakeups) (.responseParked line)
      | .responseParked line => if t ∈ s.waiting then s else s.goto t (.responseLock line s.wakeups)
      | .nextWait since => s.pollNotified t since (.nextLock s.wakeups) .nextParked
      | .nextParked => if t ∈ s.waiting then s else s.goto t (.nextLock s.wakeups)
      | _ => s
  | .return t =>
      match s.pc t with
      | .done _ => s.goto t .idle
      | _ => s
  | .abort t =>
      match s.pc t with
      | .eventLock _ => s.goto t .idle
      | _ => s

def run (steps : List (Step τ)) : Outbox τ := steps.foldl (fun s l => s.next l) s

end Outbox

/-- Every interleaving of the tasks of a connection. -/
def outbox (τ : Type) [DecidableEq τ] (capacity : Nat) : System (Outbox τ) (Step τ) where
  init s := s = .new capacity
  step s l s' := s' = s.next l

end HerdrBoard.Server
