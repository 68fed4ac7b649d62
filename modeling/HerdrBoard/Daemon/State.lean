import HerdrBoard.Core.Db.Runs
import HerdrBoard.Core.Db.Projects
import HerdrBoard.Core.Prompt
import Mathlib.Data.List.AList

/-!
# Daemon state

The store, the in-memory scheduler state, and the kill requests sent to the spawner. A daemon
computation is one critical section: it runs under the scheduler and store locks. -/

open Lib HerdrBoard.Core

namespace HerdrBoard.Daemon

/-- Monotonic clock reading, in milliseconds. -/
abbrev Instant := Int

/-- The largest and smallest instants the platform represents: an i64 number of seconds. -/
def instantMax : Instant := 2 ^ 63 * 1000 - 1
def instantMin : Instant := -2 ^ 63 * 1000

def checkedInstant (t : Instant) : Option Instant :=
  if instantMin ≤ t ∧ t ≤ instantMax then some t else none

/-- `Instant::saturating_duration_since`. -/
def saturatingDurationSince (now earlier : Instant) : Int := max (now - earlier) 0

structure RuntimeHandle where
  paneId : Option String
  workspaceId : Option String
  anchorPaneId : Option String
  pid : Option Nat
  herdrSocket : Option String
  capturedSessionId : Option String
  deriving DecidableEq, Repr

/-- In-memory bookkeeping for a started run. -/
structure ActiveRun where
  cardId : Int
  handle : RuntimeHandle
  started : Instant
  timeoutDeadline : Option Instant
  idleSince : Option Instant
  awaitingSince : Option Instant
  isLocal : Bool
  paneId : Option String
  deriving DecidableEq, Repr

namespace ActiveRun

/-- The monotonic deadline of a durable one; an overdue deadline is the adoption instant itself. -/
def reconstructDeadline (adoptedAt : Instant) (wallNowMs : Int) (deadlineAtMs : Option Int) :
    Option Instant :=
  deadlineAtMs.bind fun ms => checkedInstant (adoptedAt + max (saturatingSub ms wallNowMs) 0)

/-- The monotonic pause instant of a durable one. -/
def reconstructAwaitingSince (adoptedAt : Instant) (wallNowMs : Int) (pausedAtMs : Option Int) :
    Option Instant :=
  pausedAtMs.map fun paused =>
    (checkedInstant (adoptedAt - max (saturatingSub wallNowMs paused) 0)).getD adoptedAt

/-- Enter awaiting: disarm idle tracking and begin the timeout pause. -/
def enterAwaiting (a : ActiveRun) (now : Instant) : ActiveRun :=
  { a with idleSince := none, awaitingSince := some now }

/-- Leave awaiting: shift the deadline by the time spent awaiting. -/
def leaveAwaiting (a : ActiveRun) (now : Instant) : ActiveRun :=
  match a.awaitingSince with
  | none => a
  | some paused =>
      { a with
        awaitingSince := none
        timeoutDeadline := a.timeoutDeadline.map fun d => d + saturatingDurationSince now paused }

end ActiveRun

/-- In-memory scheduler state: started runs by run id, and consecutive auto-hops by card id. -/
structure Sched where
  active : AList fun _ : Int => ActiveRun
  chainHops : AList fun _ : Int => Nat

def Sched.empty : Sched := ⟨∅, ∅⟩

/-- The daemon's configuration and settings. -/
structure Config where
  maxConcurrent : Nat
  idleGraceSeconds : Nat
  timeoutUnitSecs : Nat
  /-- Config-defined harnesses and their argv templates. -/
  harness : List (String × List String)

/-- What a critical section takes from outside: clocks, a fresh uuid, capability catalogs,
Herdr's answers. -/
structure Env where
  conn : Conn
  instant : Instant
  wallNowMs : Int
  uuid : String
  capabilitiesFor : CapabilitiesFor
  resolveSession : Option String → Except String Unit
  resolveSpace : SpaceKind → Option String → Option String → Except String Unit

structure DaemonState where
  db : Db
  sched : Sched
  /-- Handles passed to `spawner.kill`, oldest first. -/
  kills : List RuntimeHandle

abbrev DaemonM := EStateM Error DaemonState

/-- Run a store computation. -/
def store {α : Type} (x : StoreM α) : DaemonM α := zoom DaemonState.db (fun db d => { d with db }) x

theorem store_ok {α : Type} {x : StoreM α} {d d' : DaemonState} {a : α} :
    store x d = .ok a d' ↔ ∃ db, x d.db = .ok a db ∧ { d with db } = d' := zoom_ok

def DaemonState.kill (d : DaemonState) (handle : RuntimeHandle) : DaemonState :=
  { d with kills := d.kills ++ [handle] }

/-- A daemon just started on a database. -/
def DaemonState.start (db : Db) : DaemonState := { db, sched := .empty, kills := [] }

end HerdrBoard.Daemon
