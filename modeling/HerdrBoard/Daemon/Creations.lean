import HerdrBoard.Daemon.System

/-!
# Creations in two lock scopes

`card.create` looks at its destination in one lock scope and inserts its card in another. Between
the two any other step may run. -/

open Lib HerdrBoard.Core

namespace HerdrBoard.Daemon

/-- The daemon, and the creations that passed their guard and have not inserted their card. -/
structure Creations where
  world : World
  passed : List CardCreateParams

inductive CreationLabel where
  | guard (p : CardCreateParams)
  | enter (env : Env) (p : CardCreateParams)
  | other (l : Label)

variable (cfg : Config)

def Creations.next (s : Creations) : CreationLabel → Creations
  | .guard p =>
      match createGuard p s.world.daemon.db with
      | .ok _ _ => { s with passed := p :: s.passed }
      | .error _ _ => s
  | .enter env p =>
      if p ∈ s.passed then
        { world := s.world.next cfg (.request env (.cardCreate p)), passed := s.passed.erase p }
      else s
  | .other l =>
      match l with
      | .request _ (.cardCreate _) => s
      | .restart => { world := s.world.next cfg .restart, passed := [] }
      | l => { s with world := s.world.next cfg l }

/-- The state after a list of steps. -/
def Creations.run (s : Creations) : List CreationLabel → Creations
  | [] => s
  | l :: ls => (s.next cfg l).run ls

def Creations.start (db : Db) : Creations := { world := .start db, passed := [] }

/-- Every history of the daemon on a fresh database, with creations in two steps. -/
def creations : System Creations CreationLabel where
  init s := s = .start Db.fresh
  step s l s' := s' = s.next cfg l

variable {cfg}

theorem creations_reachable_run {s : Creations} (h : (creations cfg).Reachable s)
    (ls : List CreationLabel) : (creations cfg).Reachable (s.run cfg ls) := by
  induction ls generalizing s with
  | nil => exact h
  | cons l ls ih => exact ih (h.step trivial (l := l) rfl)

end HerdrBoard.Daemon
