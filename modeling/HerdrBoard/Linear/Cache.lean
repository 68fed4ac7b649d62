import HerdrBoard.Lib.Transition
import Mathlib.Logic.Function.Basic

/-!
# The snapshot cache

One shared Linear read per space. The cache is one map under one lock, which is never held
across a fetch. -/

namespace HerdrBoard.Linear

open Lib

/-- A herdr workspace of one herdr session. -/
structure SpaceKey where
  session : String
  space : String
  deriving DecidableEq

/-- Nanoseconds of the monotonic clock. -/
abbrev Instant := Nat

structure CacheRead (T : Type) where
  /-- The newest successful read for this plan, and how old it is. -/
  good : Option (T × Nat)
  /-- Why the newest attempt failed. -/
  error : Option String

structure Entry (P T : Type) where
  plan : P
  good : Option (T × Instant)
  error : Option String
  attempted : Option Instant
  invalidated : Option Instant
  inFlight : Bool

section Cache

variable {P T : Type} [DecidableEq P]

def Entry.fresh (e : Entry P T) (plan : P) (ttl : Nat) (now : Instant) : Bool :=
  match e.attempted with
  | none => false
  | some attempted => e.plan == plan && now - attempted < ttl && e.invalidated.all fun at_ =>
      attempted > at_

def Entry.read (e : Entry P T) (now : Instant) : CacheRead T where
  good := e.good.map fun g => (g.1, now - g.2)
  error := e.error

/-- The entry a reader makes when there is none. -/
def Entry.missing (plan : P) : Entry P T where
  plan
  good := none
  error := none
  attempted := none
  invalidated := none
  inFlight := true

/-- The entry a reader marks before it fetches. -/
def Entry.mark (e : Entry P T) (plan : P) : Entry P T :=
  if e.plan = plan then { e with inFlight := true }
  else { e with plan, good := none, error := none, inFlight := true }

/-- The entry after a fetch that started at `started`. -/
def Entry.settle (e : Entry P T) (started now : Instant) : Except String T → Entry P T
  | .ok value => { e with
      inFlight := false, attempted := some started, good := some (value, now), error := none }
  | .error error => { e with inFlight := false, attempted := some started, error := some error }

abbrev SnapshotCache (P T : Type) := SpaceKey → Option (Entry P T)

namespace SnapshotCache

/-- What a reader finds under the lock. -/
inductive Looked (T : Type) where
  | serves (read : CacheRead T)
  /-- Another reader fetches: wait for it to settle. -/
  | waits
  /-- Drop the lock and fetch. -/
  | fetches

variable (c : SnapshotCache P T) (key : SpaceKey)

def set (e : Option (Entry P T)) : SnapshotCache P T := Function.update c key e

/-- One turn of the loop of `read`. -/
def look (plan : P) (ttl : Nat) (now : Instant) : Looked T × SnapshotCache P T :=
  match c key with
  | some e =>
      if e.fresh plan ttl now then (.serves (e.read now), c)
      else if e.inFlight then (.waits, c)
      else (.fetches, c.set key (some (e.mark plan)))
  | none => (.fetches, c.set key (some (.missing plan)))

/-- The end of `read`, with the outcome of its fetch. -/
def settle (started now : Instant) (outcome : Except String T) : CacheRead T × SnapshotCache P T :=
  match c key with
  | some e =>
      ((e.settle started now outcome).read now, c.set key (some (e.settle started now outcome)))
  | none =>
      (match outcome with
        | .ok value => { good := some (value, 0), error := none }
        | .error error => { good := none, error := some error }, c)

/-- The fetch unwinds: the guard's drop clears the mark. -/
def unwind : SnapshotCache P T := c.set key ((c key).map fun e => { e with inFlight := false })

def invalidate (now : Instant) : Option P × SnapshotCache P T :=
  match c key with
  | some e => (some e.plan, c.set key (some { e with invalidated := some now }))
  | none => (none, c)

def remove : SnapshotCache P T := c.set key none

end SnapshotCache

end Cache

/-! ## Readers -/

/-- What a fetch brought, with the key and the plan it was for, and when it started. -/
structure Answer (P V : Type) where
  value : V
  key : SpaceKey
  plan : P
  started : Instant
  number : Nat

/-- Where a thread in `read` is. Steps are numbered; `began` is the number of the call. -/
inductive Reader (P V : Type) where
  | idle
  | looking (key : SpaceKey) (plan : P) (ttl : Nat) (began : Nat)
  /-- It has marked the entry and dropped the lock. -/
  | marked (key : SpaceKey) (plan : P) (began : Nat)
  | fetching (key : SpaceKey) (plan : P) (began : Nat) (started : Instant) (number : Nat)
  | done (key : SpaceKey) (plan : P) (began : Nat) (read : CacheRead (Answer P V))

/-- An invalidation or a removal of a key. -/
structure Gone where
  key : SpaceKey
  instant : Instant
  number : Nat

/-- The cache, its readers, the clock, and the invalidations and removals so far. -/
structure Snapshots (ρ P V : Type) where
  cache : SnapshotCache P (Answer P V)
  readers : ρ → Reader P V
  now : Instant
  tick : Nat
  gone : List Gone

inductive Action (ρ P V : Type) where
  | call (r : ρ) (key : SpaceKey) (plan : P) (ttl : Nat)
  /-- A reader that waits may wake up at any time. -/
  | look (r : ρ)
  | start (r : ρ)
  | finish (r : ρ) (outcome : Except String V)
  | unwind (r : ρ)
  | return (r : ρ)
  | invalidate (key : SpaceKey)
  | remove (key : SpaceKey)
  | advance (d : Nat)

namespace Snapshots

variable {ρ P V : Type} [DecidableEq ρ] [DecidableEq P]

def new : Snapshots ρ P V where
  cache _ := none
  readers _ := .idle
  now := 0
  tick := 0
  gone := []

variable (s : Snapshots ρ P V)

def goto (r : ρ) (q : Reader P V) : Snapshots ρ P V :=
  { s with readers := Function.update s.readers r q }

def act : Action ρ P V → Snapshots ρ P V
  | .call r key plan ttl =>
      match s.readers r with
      | .idle => s.goto r (.looking key plan ttl s.tick)
      | _ => s
  | .look r =>
      match s.readers r with
      | .looking key plan ttl began =>
          match s.cache.look key plan ttl s.now with
          | (.serves read, cache) => { (s.goto r (.done key plan began read)) with cache }
          | (.waits, cache) => { s with cache }
          | (.fetches, cache) => { (s.goto r (.marked key plan began)) with cache }
      | _ => s
  | .start r =>
      match s.readers r with
      | .marked key plan began => s.goto r (.fetching key plan began s.now s.tick)
      | _ => s
  | .finish r outcome =>
      match s.readers r with
      | .fetching key plan began started number =>
          let settled := s.cache.settle key started s.now
            (outcome.map fun value => { value, key, plan, started, number })
          { (s.goto r (.done key plan began settled.1)) with cache := settled.2 }
      | _ => s
  | .unwind r =>
      match s.readers r with
      | .fetching key _ _ _ _ => { (s.goto r .idle) with cache := s.cache.unwind key }
      | _ => s
  | .return r =>
      match s.readers r with
      | .done .. => s.goto r .idle
      | _ => s
  | .invalidate key =>
      { s with cache := (s.cache.invalidate key s.now).2, gone := ⟨key, s.now, s.tick⟩ :: s.gone }
  | .remove key => { s with cache := s.cache.remove key, gone := ⟨key, s.now, s.tick⟩ :: s.gone }
  | .advance d => { s with now := s.now + d }

def next (a : Action ρ P V) : Snapshots ρ P V := { s.act a with tick := s.tick + 1 }

def run (actions : List (Action ρ P V)) : Snapshots ρ P V := actions.foldl (fun s a => s.next a) s

end Snapshots

/-- Every interleaving of the readers of a cache with invalidations and removals. -/
def snapshots (ρ P V : Type) [DecidableEq ρ] [DecidableEq P] :
    System (Snapshots ρ P V) (Action ρ P V) where
  init s := s = .new
  step s a s' := s' = s.next a

end HerdrBoard.Linear
