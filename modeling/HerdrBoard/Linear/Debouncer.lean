import HerdrBoard.Linear.Cache

/-!
# The debouncer

A burst of `schedule` calls of a key runs its work once after a delay, and once more for
calls during the work. Each burst has a thread; the lock of the map is not held across the
delay or the work. -/

namespace HerdrBoard.Linear

open Lib

inductive Pass where
  | waiting
  | running (again : Bool)
  deriving DecidableEq

/-- Where the thread of a burst is. -/
inductive Work where
  | sleeping
  | working (start : Nat)
  /-- The work panicked; its guards have not cleared the pass yet. -/
  | unwinding (start : Nat)
  /-- The pass is cleared; `done` has not run yet. -/
  | finishing
  | ended
  deriving DecidableEq

structure Worker where
  key : SpaceKey
  pc : Work

/-- A `schedule` call. Calls, passes and ends are numbered by the step they happen at. -/
structure Call where
  key : SpaceKey
  number : Nat

structure Started where
  worker : Nat
  key : SpaceKey
  number : Nat

/-- A pass that panicked, from its start to the clearing of its entry. -/
structure Panicked where
  key : SpaceKey
  start : Nat
  cleared : Nat

/-- A run of a burst's `done`. -/
structure Done where
  worker : Nat
  number : Nat

structure Debouncer where
  passes : SpaceKey → Option Pass
  workers : Nat → Option Worker
  spawned : Nat
  tick : Nat
  calls : List Call
  started : List Started
  panicked : List Panicked
  dones : List Done

inductive Turn where
  | schedule (key : SpaceKey)
  /-- The thread goes on: it wakes up, its work returns, its guards clear the pass, or
  `done` runs. -/
  | step (worker : Nat)
  | panic (worker : Nat)

namespace Debouncer

def new : Debouncer where
  passes _ := none
  workers _ := none
  spawned := 0
  tick := 0
  calls := []
  started := []
  panicked := []
  dones := []

variable (s : Debouncer)

def setPass (key : SpaceKey) (p : Option Pass) : Debouncer :=
  { s with passes := Function.update s.passes key p }

def goto (i : Nat) (w : Worker) : Debouncer :=
  { s with workers := Function.update s.workers i (some w) }

def schedule (key : SpaceKey) : Debouncer :=
  match s.passes key with
  | some .waiting => s
  | some (.running _) => s.setPass key (some (.running true))
  | none =>
      { (s.setPass key (some .waiting)).goto s.spawned { key, pc := .sleeping } with
        spawned := s.spawned + 1 }

/-- After the work: another pass if a call asked for it during this one. -/
def endPass (i : Nat) (key : SpaceKey) : Debouncer :=
  if s.passes key = some (.running true) then (s.setPass key (some .waiting)).goto i
    { key, pc := .sleeping }
  else (s.setPass key none).goto i { key, pc := .finishing }

def stepWorker (i : Nat) : Debouncer :=
  match s.workers i with
  | none => s
  | some { key, pc } =>
      match pc with
      | .sleeping =>
          { (s.setPass key (some (.running false))).goto i { key, pc := .working s.tick } with
            started := ⟨i, key, s.tick⟩ :: s.started }
      | .working _ => s.endPass i key
      | .unwinding start =>
          { (s.setPass key none).goto i { key, pc := .finishing } with
            panicked := ⟨key, start, s.tick⟩ :: s.panicked }
      | .finishing => { s.goto i { key, pc := .ended } with dones := ⟨i, s.tick⟩ :: s.dones }
      | .ended => s

def panicWorker (i : Nat) : Debouncer :=
  match s.workers i with
  | some { key, pc := .working start } => s.goto i { key, pc := .unwinding start }
  | _ => s

def next : Turn → Debouncer
  | .schedule key => { s.schedule key with tick := s.tick + 1, calls := ⟨key, s.tick⟩ :: s.calls }
  | .step i => { s.stepWorker i with tick := s.tick + 1 }
  | .panic i => { s.panicWorker i with tick := s.tick + 1 }

end Debouncer

/-- Every interleaving of calls and bursts. -/
def debouncer : System Debouncer Turn where
  init s := s = .new
  step s t s' := s' = s.next t

end HerdrBoard.Linear
