import HerdrBoard.Linear.Debouncer
import HerdrBoard.Lib.Fairness

/-!
# What the debouncer does with its calls

At most one burst holds a key's entry, so passes do not overlap, and a call that finds the entry
leaves a mark that the holder answers with another pass, if its pass does not panic. -/

namespace HerdrBoard.Linear

open Lib

variable {s s' : Debouncer} {t : Turn} {i j : Nat} {key : SpaceKey} {c : Call}

/-- The burst owns the entry of its key. -/
def Work.Holds : Work → Prop
  | .finishing | .ended => False
  | _ => True

/-- A pass of the burst has started and its entry is not cleared or rewritten yet. -/
def Work.Passing : Work → Prop
  | .working _ | .unwinding _ => True
  | _ => False

/-- What the entry of its key is while the burst is there. -/
def Work.Fits : Work → Option Pass → Prop
  | .sleeping, p => p = some .waiting
  | .working _, p | .unwinding _, p => ∃ again, p = some (.running again)
  | _, _ => True

namespace Debouncer

def At (s : Debouncer) (i : Nat) (key : SpaceKey) (pc : Work) : Prop := s.workers i = some ⟨key, pc⟩

def Holds (s : Debouncer) (i : Nat) (key : SpaceKey) : Prop := ∃ pc, s.At i key pc ∧ pc.Holds

def Passing (s : Debouncer) (i : Nat) (key : SpaceKey) : Prop := ∃ pc, s.At i key pc ∧ pc.Passing

/-- A pass started after the call. -/
def Served (s : Debouncer) (c : Call) : Prop := ∃ p ∈ s.started, p.key = c.key ∧ c.number < p.number

/-- The pass that ran at the time of the call panicked. -/
def Excused (s : Debouncer) (c : Call) : Prop :=
  ∃ p ∈ s.panicked, p.key = c.key ∧ p.start < c.number ∧ c.number < p.cleared

def Answered (s : Debouncer) (c : Call) : Prop := s.Served c ∨ s.Excused c

/-! What a burst owes to a call: its next pass, unless its pass of now panics. -/

def Asleep (s : Debouncer) (i : Nat) (c : Call) : Prop := s.At i c.key .sleeping ∧ c.number < s.tick

def Again (s : Debouncer) (i : Nat) (c : Call) : Prop :=
  ∃ start, s.At i c.key (.working start) ∧ s.passes c.key = some (.running true) ∧
    start < c.number ∧ c.number < s.tick

def Unwinding (s : Debouncer) (i : Nat) (c : Call) : Prop :=
  ∃ start, s.At i c.key (.unwinding start) ∧ start < c.number ∧ c.number < s.tick

def Owes (s : Debouncer) (i : Nat) (c : Call) : Prop := s.Asleep i c ∨ s.Again i c ∨ s.Unwinding i c

/-! ## The holder of a key -/

structure Wired (s : Debouncer) : Prop where
  spawned : ∀ i, s.workers i ≠ none → i < s.spawned
  fits : ∀ i key pc, s.At i key pc → pc.Fits (s.passes key)
  unique : ∀ i j key, s.Holds i key → s.Holds j key → i = j
  held : ∀ key, s.passes key ≠ none → ∃ i, s.Holds i key
  started : ∀ i key start, s.At i key (.working start) ∨ s.At i key (.unwinding start) →
    start < s.tick

theorem At.unique {pc pc' : Work} {key' : SpaceKey} (h : s.At i key pc) (h' : s.At i key' pc') :
    key = key' ∧ pc = pc' := by
  simpa [At] using h.symm.trans h'

theorem At.spawned {pc : Work} (h : s.At i key pc) (hs : s.Wired) : i < s.spawned := by
  apply hs.spawned
  simp only [At] at h
  simp [h]

section

variable {pc : Work}

/-- A burst that holds the entry goes on and rewrites it. -/
theorem Wired.move (hs : s.Wired) (pc' : Work) (p : Option Pass) (hat : s.At i key pc)
    (hholds : pc.Holds) (hworkers : s'.workers = Function.update s.workers i (some ⟨key, pc'⟩))
    (hpasses : s'.passes = Function.update s.passes key p) (hspawned : s'.spawned = s.spawned)
    (htick : s.tick ≤ s'.tick) (hfits : pc'.Fits p) (hkeeps : pc'.Holds ∨ p = none)
    (hstart : ∀ start, pc' = .working start ∨ pc' = .unwinding start → start < s'.tick) :
    s'.Wired := by
  have hself : ∀ {k q}, s'.At i k q → k = key ∧ q = pc' := by
    intro k q h
    simp only [At, hworkers, Function.update_self] at h
    cases h
    exact ⟨rfl, rfl⟩
  have hother : ∀ {j k q}, j ≠ i → (s'.At j k q ↔ s.At j k q) := by
    intro j k q hne
    simp only [At, hworkers, Function.update_of_ne hne]
  have hback : ∀ {j k}, s'.Holds j k → s.Holds j k := by
    rintro j k ⟨q, hq, hqh⟩
    by_cases hji : j = i
    · subst hji
      obtain ⟨rfl, rfl⟩ := hself hq
      exact ⟨pc, hat, hholds⟩
    · exact ⟨q, (hother hji).mp hq, hqh⟩
  constructor
  case spawned =>
    intro j hj
    rw [hspawned]
    by_cases hji : j = i
    · exact hji ▸ hat.spawned hs
    · apply hs.spawned
      simpa [hworkers, Function.update_of_ne hji] using hj
  case fits =>
    intro j k q h
    by_cases hji : j = i
    · subst hji
      obtain ⟨rfl, rfl⟩ := hself h
      simpa [hpasses] using hfits
    · have hfit := hs.fits j k q ((hother hji).mp h)
      by_cases hk : k = key
      · subst hk
        cases q with
        | finishing | ended => trivial
        | sleeping | working | unwinding =>
            exact absurd (hs.unique j i k ⟨_, (hother hji).mp h, trivial⟩ ⟨pc, hat, hholds⟩) hji
      · simpa [hpasses, Function.update_of_ne hk] using hfit
  case unique =>
    intro j j' k h h'
    exact hs.unique j j' k (hback h) (hback h')
  case held =>
    intro k hk
    by_cases hkk : k = key
    · subst hkk
      simp only [hpasses, Function.update_self] at hk
      refine ⟨i, pc', by simp [At, hworkers], ?_⟩
      rcases hkeeps with h | h
      · exact h
      · exact absurd h hk
    · simp only [hpasses, Function.update_of_ne hkk] at hk
      obtain ⟨j, q, hq, hqh⟩ := hs.held k hk
      have hji : j ≠ i := by
        rintro rfl
        exact hkk (hq.unique hat).1
      exact ⟨j, q, (hother hji).mpr hq, hqh⟩
  case started =>
    intro j k start h
    by_cases hji : j = i
    · subst hji
      apply hstart start
      rcases h with h | h
      · exact .inl (hself h).2.symm
      · exact .inr (hself h).2.symm
    · simp only [hother hji] at h
      exact Nat.lt_of_lt_of_le (hs.started j k start h) htick

/-- A burst without the entry goes on. -/
theorem Wired.rest (hs : s.Wired) (hat : s.At i key .finishing)
    (hworkers : s'.workers = Function.update s.workers i (some ⟨key, .ended⟩))
    (hpasses : s'.passes = s.passes)
    (hspawned : s'.spawned = s.spawned) (htick : s.tick ≤ s'.tick) : s'.Wired := by
  have hother : ∀ {j k q}, s'.At j k q → q = .ended ∨ s.At j k q := by
    intro j k q h
    by_cases hji : j = i
    · simp only [At, hji, hworkers, Function.update_self] at h
      cases h
      exact .inl rfl
    · simp only [At, hworkers, Function.update_of_ne hji] at h
      exact .inr h
  have hback : ∀ {j k}, s'.Holds j k → s.Holds j k := by
    rintro j k ⟨q, hq, hqh⟩
    rcases hother hq with rfl | h
    · exact absurd hqh id
    · exact ⟨q, h, hqh⟩
  constructor
  case spawned =>
    intro j hj
    rw [hspawned]
    by_cases hji : j = i
    · exact hji ▸ hat.spawned hs
    · apply hs.spawned
      simpa [hworkers, Function.update_of_ne hji] using hj
  case fits =>
    intro j k q h
    rcases hother h with rfl | h
    · trivial
    · rw [hpasses]
      exact hs.fits j k q h
  case unique =>
    intro j j' k h h'
    exact hs.unique j j' k (hback h) (hback h')
  case held =>
    intro k hk
    rw [hpasses] at hk
    obtain ⟨j, q, hq, hqh⟩ := hs.held k hk
    have hji : j ≠ i := by
      rintro rfl
      obtain ⟨-, rfl⟩ := hq.unique hat
      exact hqh
    exact ⟨j, q, by simpa [At, hworkers, Function.update_of_ne hji] using hq, hqh⟩
  case started =>
    intro j k start h
    have hold : s.At j k (.working start) ∨ s.At j k (.unwinding start) := by
      rcases h with h | h
      · exact .inl ((hother h).resolve_left (by simp))
      · exact .inr ((hother h).resolve_left (by simp))
    exact Nat.lt_of_lt_of_le (hs.started j k start hold) htick

/-- A call leaves its mark on a running pass. -/
theorem Wired.mark {again : Bool} (hs : s.Wired) (hpass : s.passes key = some (.running again))
    (hworkers : s'.workers = s.workers)
    (hpasses : s'.passes = Function.update s.passes key (some (.running true)))
    (hspawned : s'.spawned = s.spawned) (htick : s.tick ≤ s'.tick) : s'.Wired := by
  obtain ⟨i, pc, hat, hholds⟩ := hs.held key (by simp [hpass])
  have hfits := hs.fits i key pc hat
  rw [hpass] at hfits
  apply hs.move pc _ hat hholds (by rw [hworkers, ← hat, Function.update_eq_self]) hpasses
    hspawned htick
  · cases pc with
    | sleeping => simp [Work.Fits] at hfits
    | working | unwinding => exact ⟨true, rfl⟩
    | finishing | ended => trivial
  · exact .inl hholds
  · rintro start (rfl | rfl)
    · exact Nat.lt_of_lt_of_le (hs.started i key start (.inl hat)) htick
    · exact Nat.lt_of_lt_of_le (hs.started i key start (.inr hat)) htick

/-- A call that finds no entry starts a burst. -/
theorem Wired.spawn (hs : s.Wired) (hpass : s.passes key = none)
    (hworkers : s'.workers = Function.update s.workers s.spawned (some ⟨key, .sleeping⟩))
    (hpasses : s'.passes = Function.update s.passes key (some .waiting))
    (hspawned : s'.spawned = s.spawned + 1) (htick : s.tick ≤ s'.tick) : s'.Wired := by
  have hfree : ∀ j, ¬s.Holds j key := by
    rintro j ⟨pc, hat, hholds⟩
    have hfits := hs.fits j key pc hat
    rw [hpass] at hfits
    cases pc <;> simp_all [Work.Fits, Work.Holds]
  have hat : s'.At s.spawned key .sleeping := by simp [At, hworkers]
  have hother : ∀ {j k q}, j ≠ s.spawned → (s'.At j k q ↔ s.At j k q) := by
    intro j k q hne
    simp only [At, hworkers, Function.update_of_ne hne]
  have hback : ∀ {j k}, s'.Holds j k → (j = s.spawned ∧ k = key) ∨ s.Holds j k := by
    rintro j k ⟨q, hq, hqh⟩
    by_cases hj : j = s.spawned
    · subst hj
      exact .inl ⟨rfl, (hq.unique hat).1⟩
    · exact .inr ⟨q, (hother hj).mp hq, hqh⟩
  constructor
  case spawned =>
    intro j hj
    rw [hspawned]
    by_cases hjs : j = s.spawned
    · omega
    · have := hs.spawned j (by simpa [hworkers, Function.update_of_ne hjs] using hj)
      omega
  case fits =>
    intro j k q h
    by_cases hj : j = s.spawned
    · subst hj
      obtain ⟨rfl, rfl⟩ := h.unique hat
      simp [Work.Fits, hpasses]
    · have hold := (hother hj).mp h
      have hfit := hs.fits j k q hold
      by_cases hk : k = key
      · subst hk
        cases q with
        | finishing | ended => trivial
        | sleeping | working | unwinding => exact absurd ⟨_, hold, trivial⟩ (hfree j)
      · simpa [hpasses, Function.update_of_ne hk] using hfit
  case unique =>
    intro j j' k h h'
    rcases hback h with ⟨rfl, rfl⟩ | h
    · rcases hback h' with ⟨rfl, -⟩ | h'
      · rfl
      · exact absurd h' (hfree j')
    · rcases hback h' with ⟨rfl, rfl⟩ | h'
      · exact absurd h (hfree j)
      · exact hs.unique j j' k h h'
  case held =>
    intro k hk
    by_cases hkk : k = key
    · exact ⟨s.spawned, .sleeping, hkk ▸ hat, trivial⟩
    · simp only [hpasses, Function.update_of_ne hkk] at hk
      obtain ⟨j, q, hq, hqh⟩ := hs.held k hk
      have hj : j ≠ s.spawned := Nat.ne_of_lt (hq.spawned hs)
      exact ⟨j, q, (hother hj).mpr hq, hqh⟩
  case started =>
    intro j k start h
    by_cases hj : j = s.spawned
    · subst hj
      rcases h with h | h <;> simpa using (h.unique hat).2
    · simp only [hother hj] at h
      exact Nat.lt_of_lt_of_le (hs.started j k start h) htick

end

/-! ## What a turn does -/

/-- The turn takes the debouncer to the state, by what it finds. -/
inductive Takes (s : Debouncer) : Turn → Debouncer → Prop where
  | spawn {key : SpaceKey} (hpass : s.passes key = none) : s.Takes (.schedule key)
      { (s.setPass key (some .waiting)).goto s.spawned { key, pc := .sleeping } with
        spawned := s.spawned + 1, tick := s.tick + 1, calls := ⟨key, s.tick⟩ :: s.calls }
  | join {key : SpaceKey} (hpass : s.passes key = some .waiting) : s.Takes (.schedule key)
      { s with tick := s.tick + 1, calls := ⟨key, s.tick⟩ :: s.calls }
  | mark {key : SpaceKey} {again : Bool} (hpass : s.passes key = some (.running again)) :
      s.Takes (.schedule key)
      { s.setPass key (some (.running true)) with
        tick := s.tick + 1, calls := ⟨key, s.tick⟩ :: s.calls }
  | wake {i : Nat} {key : SpaceKey} (hat : s.At i key .sleeping) : s.Takes (.step i)
      { (s.setPass key (some (.running false))).goto i { key, pc := .working s.tick } with
        started := ⟨i, key, s.tick⟩ :: s.started, tick := s.tick + 1 }
  | again {i : Nat} {key : SpaceKey} {start : Nat} (hat : s.At i key (.working start))
      (hpass : s.passes key = some (.running true)) : s.Takes (.step i)
      { (s.setPass key (some .waiting)).goto i { key, pc := .sleeping } with tick := s.tick + 1 }
  | clear {i : Nat} {key : SpaceKey} {start : Nat} (hat : s.At i key (.working start))
      (hpass : s.passes key ≠ some (.running true)) : s.Takes (.step i)
      { (s.setPass key none).goto i { key, pc := .finishing } with tick := s.tick + 1 }
  | unwind {i : Nat} {key : SpaceKey} {start : Nat} (hat : s.At i key (.unwinding start)) :
      s.Takes (.step i) { (s.setPass key none).goto i { key, pc := .finishing } with
        panicked := ⟨key, start, s.tick⟩ :: s.panicked, tick := s.tick + 1 }
  | finish {i : Nat} {key : SpaceKey} (hat : s.At i key .finishing) : s.Takes (.step i)
      { s.goto i { key, pc := .ended } with dones := ⟨i, s.tick⟩ :: s.dones, tick := s.tick + 1 }
  | rest {i : Nat} (hat : ∀ key pc, s.At i key pc → pc = .ended) :
      s.Takes (.step i) { s with tick := s.tick + 1 }
  | panic {i : Nat} {key : SpaceKey} {start : Nat} (hat : s.At i key (.working start)) :
      s.Takes (.panic i) { s.goto i { key, pc := .unwinding start } with tick := s.tick + 1 }
  | calm {i : Nat} (hat : ∀ key start, ¬s.At i key (.working start)) :
      s.Takes (.panic i) { s with tick := s.tick + 1 }

theorem takes_schedule (s : Debouncer) (key : SpaceKey) :
    s.Takes (.schedule key) (s.next (.schedule key)) := by
  cases hpass : s.passes key with
  | none => simpa [next, schedule, hpass, goto, setPass] using Takes.spawn hpass
  | some p =>
      cases p with
      | waiting => simpa [next, schedule, hpass] using Takes.join hpass
      | running again => simpa [next, schedule, hpass, setPass] using Takes.mark hpass

theorem takes_step (s : Debouncer) (i : Nat) : s.Takes (.step i) (s.next (.step i)) := by
  cases hat : s.workers i with
  | none =>
      have hrest : ∀ key pc, s.At i key pc → pc = .ended :=
        fun key pc h => by cases hat.symm.trans h
      simpa [next, stepWorker, hat] using Takes.rest hrest
  | some w =>
      obtain ⟨key, pc⟩ := w
      cases pc with
      | sleeping => simpa [next, stepWorker, hat, goto, setPass] using Takes.wake hat
      | working start =>
          by_cases hpass : s.passes key = some (.running true)
          · simpa [next, stepWorker, hat, endPass, hpass, goto, setPass] using Takes.again hat hpass
          · simpa [next, stepWorker, hat, endPass, hpass, goto, setPass] using Takes.clear hat hpass
      | unwinding start => simpa [next, stepWorker, hat, goto, setPass] using Takes.unwind hat
      | finishing => simpa [next, stepWorker, hat, goto] using Takes.finish hat
      | ended =>
          have hrest : ∀ key' pc, s.At i key' pc → pc = .ended := fun key' pc h => (h.unique hat).2
          simpa [next, stepWorker, hat] using Takes.rest hrest

theorem takes_panic (s : Debouncer) (i : Nat) : s.Takes (.panic i) (s.next (.panic i)) := by
  by_cases hat : ∃ key start, s.At i key (.working start)
  · obtain ⟨key, start, hat⟩ := hat
    have hw : s.workers i = some ⟨key, .working start⟩ := hat
    simpa [next, panicWorker, hw, goto] using Takes.panic hat
  · have hcalm : ∀ key start, ¬s.At i key (.working start) := fun key start h => hat ⟨key, start, h⟩
    have hsame : s.panicWorker i = s := by
      unfold panicWorker
      split
      · exact absurd ‹_› (hcalm _ _)
      · rfl
    simpa [next, hsame] using Takes.calm hcalm

theorem takes (s : Debouncer) (t : Turn) : s.Takes t (s.next t) := by
  cases t with
  | schedule key => exact s.takes_schedule key
  | step i => exact s.takes_step i
  | panic i => exact s.takes_panic i

theorem Takes.tick (h : s.Takes t s') : s'.tick = s.tick + 1 := by
  cases h <;> rfl

theorem Takes.spawned (h : s.Takes (.schedule key) s') (hpass : s.passes key = none) :
    s'.At s.spawned key .sleeping := by
  cases h with
  | spawn => exact Function.update_self ..
  | join h | mark h =>
      rw [hpass] at h
      cases h

/-- Nobody goes away. -/
theorem Takes.alive (h : s.Takes t s') (hi : s.workers i ≠ none) : s'.workers i ≠ none := by
  have hgoto : ∀ {j w}, Function.update s.workers j (some w) i ≠ none := by
    intro j w
    by_cases hj : j = i
    · simp [hj]
    · simpa [Function.update_of_ne (Ne.symm hj)] using hi
  cases h with
  | join | mark | rest | calm => exact hi
  | _ => exact hgoto

theorem Takes.started (h : s.Takes t s') : s.started ⊆ s'.started := by
  cases h with
  | wake => exact List.subset_cons_self _ _
  | _ => exact List.Subset.refl _

theorem Takes.panicked (h : s.Takes t s') : s.panicked ⊆ s'.panicked := by
  cases h with
  | unwind => exact List.subset_cons_self _ _
  | _ => exact List.Subset.refl _

theorem Wired.tick (hs : s.Wired) : Wired { s with tick := s.tick + 1 } where
  spawned := hs.spawned
  fits := hs.fits
  unique := hs.unique
  held := hs.held
  started i key start h := Nat.lt_succ_of_lt (hs.started i key start h)

theorem Wired.next (hs : s.Wired) (ht : s.Takes t s') : s'.Wired := by
  cases ht with
  | spawn hpass => exact hs.spawn hpass rfl rfl rfl (Nat.le_succ _)
  | join => exact { hs.tick with }
  | mark hpass => exact hs.mark hpass rfl rfl rfl (Nat.le_succ _)
  | wake hat =>
      exact hs.move (.working s.tick)
        (some (.running false)) hat trivial rfl rfl rfl (Nat.le_succ _) ⟨false, rfl⟩
        (.inl trivial) (by simp)
  | again hat =>
      exact hs.move .sleeping (some .waiting) hat trivial rfl rfl rfl (Nat.le_succ _) rfl
        (.inl trivial) (by simp)
  | clear hat | unwind hat =>
      exact hs.move .finishing none hat trivial rfl rfl rfl (Nat.le_succ _) trivial (.inr rfl)
        (by simp)
  | finish hat => exact hs.rest hat rfl rfl rfl (Nat.le_succ _)
  | rest | calm => exact hs.tick
  | @panic i key start hat =>
      have hlt := hs.started i key start (.inl hat)
      refine hs.move (.unwinding start)
        (s.passes key) hat trivial rfl (Function.update_eq_self key s.passes).symm rfl
        (Nat.le_succ _) (hs.fits i key (.working start) hat) (.inl trivial) ?_
      rintro _ (⟨⟨⟩⟩ | ⟨⟨⟩⟩)
      exact Nat.lt_succ_of_lt hlt

theorem wired_new : Debouncer.new.Wired where
  spawned i h := absurd rfl h
  fits i key pc h := by cases h
  unique i j key h := by
    obtain ⟨pc, hat, -⟩ := h
    cases hat
  held key h := absurd rfl h
  started i key start h := by
    rcases h with h | h <;> cases h

/-- Turns of others leave a burst where it is. -/
theorem At.next {pc : Work} (h : s.At i key pc) (hs : s.Wired) (ht : s.Takes t s')
    (hstep : t ≠ .step i) (hpanic : t ≠ .panic i) : s'.At i key pc := by
  have hgoto : ∀ {j w}, j ≠ i → Function.update s.workers j w i = some ⟨key, pc⟩ :=
    fun hne => (Function.update_of_ne (Ne.symm hne) ..).trans h
  cases ht with
  | spawn => exact hgoto (Nat.ne_of_gt (h.spawned hs))
  | join | mark | rest | calm => exact h
  | wake | again | clear | unwind | finish => exact hgoto fun hji => hstep (hji ▸ rfl)
  | panic => exact hgoto fun hji => hpanic (hji ▸ rfl)

theorem At.stays {pc : Work} (h : s.At i key pc) (hs : s.Wired) (ht : s.Takes t s')
    (hpc : ∀ start, pc ≠ .working start) (hstep : t ≠ .step i) : s'.At i key pc := by
  by_cases hpanic : t = .panic i
  · subst hpanic
    cases ht with
    | panic hat => exact absurd (h.unique hat).2 (hpc _)
    | calm => exact h
  · exact h.next hs ht hstep hpanic

/-- Turns of others leave the mark of a call on a pass. -/
theorem Takes.marked (ht : s.Takes t s') (hs : s.Wired) (h : s.Holds i key) (hstep : t ≠ .step i)
    (hmark : s.passes key = some (.running true)) : s'.passes key = some (.running true) := by
  have hset : ∀ {k p}, k ≠ key → Function.update s.passes k p key = some (.running true) :=
    fun hne => (Function.update_of_ne (Ne.symm hne) ..).trans hmark
  have hother : ∀ {j k pc}, s.At j k pc → pc.Holds → t = .step j → k ≠ key := by
    rintro j k pc hat hholds rfl rfl
    exact hstep (congrArg Turn.step (hs.unique j i k ⟨pc, hat, hholds⟩ h))
  cases ht with
  | spawn hpass =>
      apply hset
      rintro rfl
      rw [hpass] at hmark
      cases hmark
  | @mark k =>
      by_cases hk : k = key
      · subst hk
        exact Function.update_self ..
      · exact hset hk
  | join | finish | rest | panic | calm => exact hmark
  | wake hat | again hat | clear hat | unwind hat => exact hset (hother hat trivial rfl)

/-! ## Calls -/

theorem Served.next (h : s.Served c) (ht : s.Takes t s') : s'.Served c := by
  obtain ⟨p, hp, hpc⟩ := h
  exact ⟨p, ht.started hp, hpc⟩

theorem Excused.next (h : s.Excused c) (ht : s.Takes t s') : s'.Excused c := by
  obtain ⟨p, hp, hpc⟩ := h
  exact ⟨p, ht.panicked hp, hpc⟩

theorem Answered.next (h : s.Answered c) (ht : s.Takes t s') : s'.Answered c := by
  rcases h with h | h
  · exact .inl (h.next ht)
  · exact .inr (h.next ht)

theorem Asleep.wakes (h : s.Asleep i c) (ht : s.Takes (.step i) s') : s'.Answered c := by
  obtain ⟨hat, hlt⟩ := h
  cases ht with
  | wake h =>
      obtain ⟨rfl, -⟩ := h.unique hat
      exact .inl ⟨_, List.mem_cons_self, rfl, hlt⟩
  | again h | clear h | unwind h | finish h => cases (h.unique hat).2
  | rest h => cases h c.key _ hat

theorem Asleep.next (h : s.Asleep i c) (hs : s.Wired) (ht : s.Takes t s') :
    s'.Asleep i c ∨ s'.Answered c := by
  obtain ⟨hat, hlt⟩ := h
  by_cases hstep : t = .step i
  · subst hstep
    exact .inr (Asleep.wakes ⟨hat, hlt⟩ ht)
  · left
    exact ⟨hat.stays hs ht (by simp) hstep, by rw [ht.tick]; omega⟩

theorem Unwinding.clears (h : s.Unwinding i c) (ht : s.Takes (.step i) s') : s'.Answered c := by
  obtain ⟨start, hat, hstart, hlt⟩ := h
  cases ht with
  | unwind h =>
      obtain ⟨rfl, heq⟩ := h.unique hat
      cases heq
      exact .inr ⟨_, List.mem_cons_self, rfl, hstart, hlt⟩
  | wake h | again h | clear h | finish h => cases (h.unique hat).2
  | rest h => cases h c.key _ hat

theorem Unwinding.next (h : s.Unwinding i c) (hs : s.Wired) (ht : s.Takes t s') :
    s'.Unwinding i c ∨ s'.Answered c := by
  obtain ⟨start, hat, hstart, hlt⟩ := h
  by_cases hstep : t = .step i
  · subst hstep
    exact .inr (Unwinding.clears ⟨start, hat, hstart, hlt⟩ ht)
  · left
    exact ⟨start, hat.stays hs ht (by simp) hstep, hstart, by rw [ht.tick]; omega⟩

theorem Again.goesOn (h : s.Again i c) (ht : s.Takes (.step i) s') : s'.Asleep i c := by
  obtain ⟨start, hat, hmark, -, hlt⟩ := h
  cases ht with
  | again h =>
      obtain ⟨rfl, -⟩ := h.unique hat
      exact ⟨Function.update_self .., Nat.lt_succ_of_lt hlt⟩
  | clear h hpass =>
      obtain ⟨rfl, -⟩ := h.unique hat
      exact absurd hmark hpass
  | wake h | unwind h | finish h => cases (h.unique hat).2
  | rest h => cases h c.key _ hat

theorem Again.next (h : s.Again i c) (hs : s.Wired) (ht : s.Takes t s') :
    s'.Again i c ∨ s'.Asleep i c ∨ s'.Unwinding i c := by
  obtain ⟨start, hat, hmark, hstart, hlt⟩ := h
  have hlt' : c.number < s'.tick := by rw [ht.tick]; omega
  by_cases hstep : t = .step i
  · subst hstep
    exact .inr (.inl (Again.goesOn ⟨start, hat, hmark, hstart, hlt⟩ ht))
  · by_cases hpanic : t = .panic i
    · subst hpanic
      cases ht with
      | panic h =>
          obtain ⟨rfl, heq⟩ := h.unique hat
          cases heq
          exact .inr (.inr ⟨start, Function.update_self .., hstart, hlt'⟩)
      | calm h => exact absurd hat (h c.key start)
    · exact .inl ⟨start, hat.next hs ht hstep hpanic, ht.marked hs ⟨_, hat, trivial⟩ hstep hmark,
        hstart, hlt'⟩

/-- A burst goes on owing until the call is answered. -/
theorem Owes.next (h : s.Owes i c) (hs : s.Wired) (ht : s.Takes t s') :
    s'.Owes i c ∨ s'.Answered c := by
  rcases h with h | h | h
  · rcases h.next hs ht with h | h
    · exact .inl (.inl h)
    · exact .inr h
  · rcases h.next hs ht with h | h | h
    · exact .inl (.inr (.inl h))
    · exact .inl (.inl h)
    · exact .inl (.inr (.inr h))
  · rcases h.next hs ht with h | h
    · exact .inl (.inr (.inr h))
    · exact .inr h

/-- Every call is answered or owed an answer. -/
def Kept (s : Debouncer) : Prop := ∀ c ∈ s.calls, s.Answered c ∨ ∃ i, s.Owes i c

theorem Takes.owed (ht : s.Takes (.schedule key) s') (hs : s.Wired) :
    ∃ i, s'.Owes i ⟨key, s.tick⟩ := by
  cases ht with
  | spawn => exact ⟨s.spawned, .inl ⟨Function.update_self .., Nat.lt_succ_self _⟩⟩
  | join hpass =>
      obtain ⟨i, pc, hat, hholds⟩ := hs.held key (by simp [hpass])
      have hfits := hs.fits i key pc hat
      rw [hpass] at hfits
      cases pc with
      | sleeping => exact ⟨i, .inl ⟨hat, Nat.lt_succ_self _⟩⟩
      | working | unwinding => simp [Work.Fits] at hfits
      | finishing | ended => cases hholds
  | mark hpass =>
      obtain ⟨i, pc, hat, hholds⟩ := hs.held key (by simp [hpass])
      have hfits := hs.fits i key pc hat
      rw [hpass] at hfits
      cases pc with
      | sleeping => simp [Work.Fits] at hfits
      | working start =>
          have hlt := hs.started i key start (.inl hat)
          exact ⟨i, .inr (.inl ⟨start, hat, Function.update_self .., hlt, Nat.lt_succ_self _⟩)⟩
      | unwinding start =>
          have hlt := hs.started i key start (.inr hat)
          exact ⟨i, .inr (.inr ⟨start, hat, hlt, Nat.lt_succ_self _⟩)⟩
      | finishing | ended => cases hholds

theorem Takes.calls (ht : s.Takes t s') (hc : c ∈ s'.calls) :
    c ∈ s.calls ∨ ∃ key, t = .schedule key ∧ c = ⟨key, s.tick⟩ := by
  cases ht with
  | spawn | join | mark =>
      rcases List.mem_cons.mp hc with rfl | hc
      · exact .inr ⟨_, rfl, rfl⟩
      · exact .inl hc
  | _ => exact .inl hc

theorem Kept.next (h : s.Kept) (hs : s.Wired) (ht : s.Takes t s') : s'.Kept := by
  intro c hc
  rcases ht.calls hc with hc | ⟨key, rfl, rfl⟩
  · rcases h c hc with h | ⟨i, h⟩
    · exact .inl (h.next ht)
    · rcases h.next hs ht with h | h
      · exact .inr ⟨i, h⟩
      · exact .inl h
  · exact .inr (ht.owed hs)

/-! ## The ends of bursts -/

structure Ends (s : Debouncer) : Prop where
  ended : ∀ d ∈ s.dones, ∃ key, s.At d.worker key .ended
  done : ∀ i key, s.At i key .ended → ∃ d ∈ s.dones, d.worker = i
  once : (s.dones.map Done.worker).Nodup
  last : ∀ d ∈ s.dones, ∀ p ∈ s.started, p.worker = d.worker → p.number < d.number
  past : ∀ p ∈ s.started, p.number < s.tick

/-- No burst ends and no pass starts. -/
theorem Ends.still (h : s.Ends) (hdones : s'.dones = s.dones) (hstarted : s'.started = s.started)
    (htick : s.tick ≤ s'.tick) (hat : ∀ i key, s'.At i key .ended ↔ s.At i key .ended) :
    s'.Ends where
  ended d hd := by simpa only [hat] using h.ended d (hdones ▸ hd)
  done i key hi := hdones ▸ h.done i key ((hat i key).mp hi)
  once := hdones ▸ h.once
  last d hd p hp := h.last d (hdones ▸ hd) p (hstarted ▸ hp)
  past p hp := Nat.lt_of_lt_of_le (h.past p (hstarted ▸ hp)) htick

theorem at_goto_ended (pc : Work) (key : SpaceKey) {workers : Nat → Option Worker}
    {w : Option Worker} (hpc : pc ≠ .ended)
    (hw : ∀ key, w ≠ some ⟨key, .ended⟩) (hworkers : workers i = w) (j : Nat) (key' : SpaceKey) :
    Function.update workers i (some ⟨key, pc⟩) j = some ⟨key', .ended⟩ ↔
      workers j = some ⟨key', .ended⟩ := by
  by_cases hj : j = i
  · subst hj
    simp [hworkers, hw, hpc]
  · rw [Function.update_of_ne hj]

theorem Ends.next (h : s.Ends) (hs : s.Wired) (ht : s.Takes t s') : s'.Ends := by
  have hle : s.tick ≤ s.tick + 1 := Nat.le_succ _
  cases ht with
  | spawn =>
      have hnone : s.workers s.spawned = none := by
        by_contra hsome
        exact absurd (hs.spawned _ hsome) (Nat.lt_irrefl _)
      exact h.still rfl rfl hle (at_goto_ended _ _ (by simp) (by simp) hnone)
  | join | mark | rest | calm => exact h.still rfl rfl hle fun _ _ => Iff.rfl
  | again hat | clear hat | unwind hat | panic hat =>
      exact h.still rfl rfl hle (at_goto_ended _ _ (by simp) (by simp) hat)
  | @wake i key hat =>
      have hsame := at_goto_ended (.working s.tick) key (by simp) (by simp) hat
      exact
        { ended := fun d hd => by
            obtain ⟨k, hk⟩ := h.ended d hd
            exact ⟨k, (hsame d.worker k).mpr hk⟩
          done := fun j k hj => h.done j k ((hsame j k).mp hj)
          once := h.once
          last := fun d hd p hp hworker => by
            rcases List.mem_cons.mp hp with rfl | hp
            · -- the burst that wakes up has not ended
              obtain ⟨k, hk⟩ := h.ended d hd
              rw [← hworker] at hk
              cases (hk.unique hat).2
            · exact h.last d hd p hp hworker
          past := fun p hp => by
            rcases List.mem_cons.mp hp with rfl | hp
            · exact Nat.lt_succ_self _
            · exact Nat.lt_succ_of_lt (h.past p hp) }
  | @finish i key hat =>
      have hfresh : ∀ d ∈ s.dones, d.worker ≠ i := by
        rintro d hd rfl
        obtain ⟨k, hk⟩ := h.ended d hd
        cases (hk.unique hat).2
      have hself : (s.goto i { key, pc := .ended }).At i key .ended := Function.update_self ..
      have hother : ∀ {j k}, j ≠ i →
          ((s.goto i { key, pc := .ended }).At j k .ended ↔ s.At j k .ended) := by
        intro j k hj
        simp only [At, goto, Function.update_of_ne hj]
      exact
        { ended := fun d hd => by
            rcases List.mem_cons.mp hd with rfl | hd
            · exact ⟨key, hself⟩
            · obtain ⟨k, hk⟩ := h.ended d hd
              exact ⟨k, (hother (hfresh d hd)).mpr hk⟩
          done := fun j k hj => by
            by_cases hji : j = i
            · exact ⟨_, List.mem_cons_self, hji.symm⟩
            · obtain ⟨d, hd, hdj⟩ := h.done j k ((hother hji).mp hj)
              exact ⟨d, List.mem_cons_of_mem _ hd, hdj⟩
          once := by
            refine List.nodup_cons.mpr ⟨fun hmem => ?_, h.once⟩
            obtain ⟨d, hd, hdi⟩ := List.mem_map.mp hmem
            exact hfresh d hd hdi
          last := fun d hd p hp hworker => by
            rcases List.mem_cons.mp hd with rfl | hd
            · exact h.past p hp
            · exact h.last d hd p hp hworker
          past := fun p hp => Nat.lt_succ_of_lt (h.past p hp) }

/-! ## Every run -/

structure Ok (s : Debouncer) : Prop where
  wired : s.Wired
  kept : s.Kept
  ends : s.Ends

theorem ok_new : Debouncer.new.Ok where
  wired := wired_new
  kept c hc := by cases hc
  ends :=
    { ended := fun d hd => by cases hd
      done := fun i key h => by cases h
      once := List.nodup_nil
      last := fun d hd => by cases hd
      past := fun p hp => by cases hp }

theorem Ok.next (h : s.Ok) (t : Turn) : (s.next t).Ok where
  wired := h.wired.next (s.takes t)
  kept := h.kept.next h.wired (s.takes t)
  ends := h.ends.next h.wired (s.takes t)

theorem ok_of_reachable (h : debouncer.Reachable s) : s.Ok := by
  refine h.invariant ?_ ?_
  · rintro s rfl
    exact ok_new
  · rintro s t _ hs - rfl
    exact hs.next t

/-- What holds of every state of a debouncer. -/
structure Sound (s : Debouncer) : Prop where
  /-- Two passes of a key never overlap. -/
  single : ∀ i j key, s.Passing i key → s.Passing j key → i = j
  /-- When no burst runs for a key it has no entry, and the next call starts a burst. -/
  idle : ∀ key, (∀ i, ¬s.Holds i key) →
    s.passes key = none ∧ s.workers s.spawned = none ∧
    (s.next (.schedule key)).At s.spawned key .sleeping
  /-- By the end of the burst every call is answered. -/
  settled : ∀ c ∈ s.calls, (∀ i, ¬s.Holds i c.key) → s.Answered c
  /-- A burst's `done` runs once, when the burst ends, after its last pass. -/
  done_once : (s.dones.map Done.worker).Nodup
  done_iff : ∀ i, (∃ d ∈ s.dones, d.worker = i) ↔ ∃ key, s.At i key .ended
  done_last : ∀ d ∈ s.dones, ∀ p ∈ s.started, p.worker = d.worker → p.number < d.number

theorem Passing.holds (h : s.Passing i key) : s.Holds i key := by
  obtain ⟨pc, hat, hpassing⟩ := h
  cases pc with
  | working | unwinding => exact ⟨_, hat, trivial⟩
  | sleeping | finishing | ended => cases hpassing

theorem Owes.holds (h : s.Owes i c) : s.Holds i c.key := by
  rcases h with ⟨hat, -⟩ | ⟨start, hat, -⟩ | ⟨start, hat, -⟩
  · exact ⟨_, hat, trivial⟩
  · exact ⟨_, hat, trivial⟩
  · exact ⟨_, hat, trivial⟩

theorem Ok.sound (h : s.Ok) : s.Sound where
  single i j key hi hj := h.wired.unique i j key hi.holds hj.holds
  idle key hidle := by
    have hnone : s.passes key = none := by
      by_contra hsome
      obtain ⟨i, hi⟩ := h.wired.held key hsome
      exact hidle i hi
    refine ⟨hnone, ?_, (s.takes _).spawned hnone⟩
    by_contra hsome
    exact absurd (h.wired.spawned _ hsome) (Nat.lt_irrefl _)
  settled c hc hidle := by
    rcases h.kept c hc with hc | ⟨i, howes⟩
    · exact hc
    · exact absurd howes.holds (hidle i)
  done_once := h.ends.once
  done_iff i := by
    constructor
    · rintro ⟨d, hd, rfl⟩
      exact h.ends.ended d hd
    · rintro ⟨key, hat⟩
      exact h.ends.done i key hat
  done_last := h.ends.last

/-! ## Fair runs -/

section

variable {run : debouncer.InfiniteRun}

theorem tick_run (run : debouncer.InfiniteRun) (n : Nat) : (run.state n).tick = n := by
  induction n with
  | zero =>
      have hinit : run.state 0 = .new := run.init
      rw [hinit]
      rfl
  | succ n ih =>
      have hstep : run.state (n + 1) = (run.state n).next (run.label n) := run.valid n
      rw [hstep, ((run.state n).takes _).tick, ih]

theorem alive_run {n m : Nat} (hle : n ≤ m) (hi : (run.state n).workers i ≠ none) :
    (run.state m).workers i ≠ none := by
  induction hle with
  | refl => exact hi
  | @step m _ ih =>
      have hstep : run.state (m + 1) = (run.state m).next (run.label m) := run.valid m
      rw [hstep]
      exact ((run.state m).takes _).alive ih

/-- A stage that only the burst's own turn ends. -/
theorem stage (P Q : Debouncer → Prop) (hfair : run.Fair (· = .step i))
    (hstay : ∀ s t s', s.Wired → P s → s.Takes t s' → P s' ∨ Q s')
    (hturn : ∀ s s', s.Wired → P s → s.Takes (.step i) s' → Q s') {n : Nat} (hn : P (run.state n)) :
    ∃ m, n ≤ m ∧ Q (run.state m) := by
  refine Lib.System.InfiniteRun.leadsTo hfair ?_ ?_ n hn
  · rintro s t s' hs hp rfl
    exact hstay s t _ (ok_of_reachable hs).wired hp (s.takes t)
  · rintro s t s' hs hp rfl rfl
    exact hturn s _ (ok_of_reachable hs).wired hp (s.takes _)

theorem Owes.eventually (hfair : run.Fair (· = .step i)) {n : Nat} (h : (run.state n).Owes i c) :
    ∃ m, (run.state m).Answered c := by
  have hasleep : ∀ {n}, (run.state n).Asleep i c → ∃ m, (run.state m).Answered c := by
    intro n h
    obtain ⟨m, -, hm⟩ :=
      stage (·.Asleep i c) (·.Answered c) hfair (fun _ _ _ hs h ht => h.next hs ht)
      (fun _ _ _ h ht => h.wakes ht) h
    exact ⟨m, hm⟩
  have hunwinding : ∀ {n}, (run.state n).Unwinding i c → ∃ m, (run.state m).Answered c := by
    intro n h
    obtain ⟨m, -, hm⟩ :=
      stage (·.Unwinding i c) (·.Answered c) hfair (fun _ _ _ hs h ht => h.next hs ht)
      (fun _ _ _ h ht => h.clears ht) h
    exact ⟨m, hm⟩
  rcases h with h | h | h
  · exact hasleep h
  · obtain ⟨m, -, hm⟩ := stage (·.Again i c) (fun s => s.Asleep i c ∨ s.Unwinding i c) hfair
      (fun _ _ _ hs h ht => h.next hs ht) (fun _ _ _ h ht => .inl (h.goesOn ht)) h
    rcases hm with hm | hm
    · exact hasleep hm
    · exact hunwinding hm
  · exact hunwinding h

/-- The burst starts a pass from step `k` on, or its `done` runs. -/
def Goes (s : Debouncer) (i k : Nat) : Prop :=
  (∃ d ∈ s.dones, d.worker = i) ∨ ∃ p ∈ s.started, p.worker = i ∧ k ≤ p.number

theorem At.finishes (hfair : run.Fair (· = .step i)) {n k : Nat}
    (h : (run.state n).At i key .finishing) : ∃ m, (run.state m).Goes i k := by
  have hturn : ∀ s s' : Debouncer, s.Wired → s.At i key .finishing → s.Takes (.step i) s' →
      s'.Goes i k := by
    intro s s' _ hat ht
    cases ht with
    | finish => exact .inl ⟨_, List.mem_cons_self, rfl⟩
    | wake h | again h | clear h | unwind h => cases (h.unique hat).2
    | rest h => cases h key _ hat
  obtain ⟨m, -, hm⟩ := stage (·.At i key .finishing) (·.Goes i k) hfair (fun s t s' hs hat ht => by
    by_cases hstep : t = .step i
    · subst hstep
      exact .inr (hturn s s' hs hat ht)
    · exact .inl (hat.stays hs ht (by simp) hstep)) hturn h
  exact ⟨m, hm⟩

theorem At.wakesUp (hfair : run.Fair (· = .step i)) {n k : Nat}
    (h : (run.state n).At i key .sleeping) (hk : k ≤ n) : ∃ m, (run.state m).Goes i k := by
  have hturn : ∀ s s' : Debouncer, s.Wired → s.At i key .sleeping ∧ k ≤ s.tick →
      s.Takes (.step i) s' → s'.Goes i k := by
    rintro s s' - ⟨hat, hk⟩ ht
    cases ht with
    | wake => exact .inr ⟨_, List.mem_cons_self, rfl, hk⟩
    | again h | clear h | unwind h | finish h => cases (h.unique hat).2
    | rest h => cases h key _ hat
  obtain ⟨m, -, hm⟩ := stage (fun s => s.At i key .sleeping ∧ k ≤ s.tick)
    (·.Goes i k) hfair (fun s t s' hs hp ht => by
    by_cases hstep : t = .step i
    · subst hstep
      exact .inr (hturn s s' hs hp ht)
    · exact .inl ⟨hp.1.stays hs ht (by simp) hstep, by rw [ht.tick]; exact Nat.le_succ_of_le hp.2⟩)
        hturn
    ⟨h, (tick_run run n).symm ▸ hk⟩
  exact ⟨m, hm⟩

theorem At.unwinds (hfair : run.Fair (· = .step i)) {n k start : Nat}
    (h : (run.state n).At i key (.unwinding start)) : ∃ m, (run.state m).Goes i k := by
  have hturn : ∀ s s' : Debouncer, s.Wired → s.At i key (.unwinding start) → s.Takes (.step i) s' →
      s'.At i key .finishing := by
    intro s s' _ hat ht
    cases ht with
    | unwind h =>
        obtain ⟨rfl, -⟩ := h.unique hat
        exact Function.update_self ..
    | wake h | again h | clear h | finish h => cases (h.unique hat).2
    | rest h => cases h key _ hat
  obtain ⟨m, -, hm⟩ := stage (·.At i key (.unwinding start))
    (·.At i key .finishing) hfair (fun s t s' hs hat ht => by
    by_cases hstep : t = .step i
    · subst hstep
      exact .inr (hturn s s' hs hat ht)
    · exact .inl (hat.stays hs ht (by simp) hstep)) hturn h
  exact hm.finishes hfair

theorem At.works (hfair : run.Fair (· = .step i)) {n k start : Nat}
    (h : (run.state n).At i key (.working start)) (hk : k ≤ n) : ∃ m, (run.state m).Goes i k := by
  have hturn : ∀ s s' : Debouncer, s.Wired → s.At i key (.working start) → s.Takes (.step i) s' →
      s'.At i key .sleeping ∨ s'.At i key .finishing ∨ s'.At i key (.unwinding start) := by
    intro s s' _ hat ht
    cases ht with
    | again h =>
        obtain ⟨rfl, -⟩ := h.unique hat
        exact .inl (Function.update_self ..)
    | clear h =>
        obtain ⟨rfl, -⟩ := h.unique hat
        exact .inr (.inl (Function.update_self ..))
    | wake h | unwind h | finish h => cases (h.unique hat).2
    | rest h => cases h key _ hat
  obtain ⟨m, hle, hm⟩ := stage (·.At i key (.working start)) (fun s => s.At i key .sleeping ∨
    s.At i key .finishing ∨ s.At i key (.unwinding start)) hfair (fun s t s' hs hat ht => by
    by_cases hstep : t = .step i
    · subst hstep
      exact .inr (hturn s s' hs hat ht)
    · by_cases hpanic : t = .panic i
      · subst hpanic
        cases ht with
        | panic h =>
            obtain ⟨rfl, heq⟩ := h.unique hat
            cases heq
            exact .inr (.inr (.inr (Function.update_self ..)))
        | calm h => exact absurd hat (h key start)
      · exact .inl (hat.next hs ht hstep hpanic)) hturn h
  rcases hm with hm | hm | hm
  · exact hm.wakesUp hfair (Nat.le_trans hk hle)
  · exact hm.finishes hfair
  · exact hm.unwinds hfair

theorem goes_on (hfair : run.Fair (· = .step i)) {n k : Nat} (hi : (run.state n).workers i ≠ none)
    (hk : k ≤ n) : ∃ m, (run.state m).Goes i k := by
  obtain ⟨⟨key, pc⟩, hat⟩ := Option.ne_none_iff_exists'.mp hi
  have hat : (run.state n).At i key pc := hat
  cases pc with
  | sleeping => exact hat.wakesUp hfair hk
  | working start => exact hat.works hfair hk
  | unwinding start => exact hat.unwinds hfair
  | finishing => exact hat.finishes hfair
  | ended => exact ⟨n, .inl ((ok_of_reachable (run.reachable n)).ends.done i key hat)⟩

end

end Debouncer

theorem schedule_loses_no_call :
    (∀ s, debouncer.Reachable s → s.Sound) ∧
    -- in a run in which every burst goes on, every call is answered in the end
    ∀ run : debouncer.InfiniteRun, (∀ i, run.Fair (· = .step i)) →
      (∀ n, ∀ c ∈ (run.state n).calls, ∃ m, (run.state m).Answered c) ∧
      -- and every burst whose passes come to an end runs its `done`
      ∀ n i, (run.state n).workers i ≠ none →
        (∃ m, ∃ d ∈ (run.state m).dones, d.worker = i) ∨
        ∀ k, ∃ m, ∃ p ∈ (run.state m).started, p.worker = i ∧ k ≤ p.number := by
  refine ⟨fun s h => (Debouncer.ok_of_reachable h).sound,
    fun run hfair => ⟨fun n c hc => ?_, fun n i hi => ?_⟩⟩
  · rcases (Debouncer.ok_of_reachable (run.reachable n)).kept c hc with h | ⟨i, h⟩
    · exact ⟨n, h⟩
    · exact h.eventually (hfair i)
  · by_cases hdone : ∃ m, ∃ d ∈ (run.state m).dones, d.worker = i
    · exact .inl hdone
    · right
      intro k
      have halive := Debouncer.alive_run (Nat.le_max_left n k) hi
      obtain ⟨m, hm⟩ := Debouncer.goes_on (hfair i) halive (Nat.le_max_right n k)
      rcases hm with hm | hm
      · exact absurd ⟨m, hm⟩ hdone
      · exact ⟨m, hm⟩

end HerdrBoard.Linear
