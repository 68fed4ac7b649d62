import HerdrBoard.Linear.Cache
import Mathlib.Data.Nat.Basic
import Mathlib.Order.Basic

/-!
# What the snapshot cache serves

As long as no reader makes a new entry for a key under a fetch of that key, the fetches of a
key come one at a time, and every answer is for the plan asked and newer than what was
invalidated before. -/

namespace HerdrBoard.Linear

open Lib

variable {ρ P V : Type} {s s' : Snapshots ρ P V} {a : Action ρ P V} {r : ρ}

/-- The key and the plan a reader fetches for, from its mark to the end of the fetch. -/
def Reader.flying : Reader P V → Option (SpaceKey × P)
  | .marked key plan _ => some (key, plan)
  | .fetching key plan _ _ _ => some (key, plan)
  | _ => none

/-- The reader fetches for the key. -/
def Snapshots.InFlight (s : Snapshots ρ P V) (r : ρ) (key : SpaceKey) : Prop :=
  ∃ plan, (s.readers r).flying = some (key, plan)

/-- What `read` answers to a call that began at step `began`. -/
def Snapshots.Serves (s : Snapshots ρ P V) (key : SpaceKey) (plan : P) (began : Nat)
    (read : CacheRead (Answer P V)) : Prop :=
  ∀ v age, read.good = some (v, age) → v.key = key ∧ v.plan = plan ∧
    (read.error = none → ∀ g ∈ s.gone, g.key = key → g.number < began → g.number < v.number)

/-- Every answer is for its key and plan and newer than what was gone by the call; one fetch of a
key at a time. -/
structure Snapshots.Sound (s : Snapshots ρ P V) : Prop where
  serves : ∀ r key plan began read, s.readers r = .done key plan began read →
    s.Serves key plan began read
  single : ∀ r r' key, s.InFlight r key → s.InFlight r' key → r = r'

/-- A reader that finds no entry finds no fetch of the key under way. -/
def FindsNoFetch (s : Snapshots ρ P V) (a : Action ρ P V) : Prop :=
  ∀ r key plan ttl began, a = .look r → s.readers r = .looking key plan ttl began →
    s.cache key = none → ∀ r', ¬s.InFlight r' key

/-! ## What every step keeps -/

/-- A fetch that started at the instant and the step. -/
structure Snapshots.Clocked (s : Snapshots ρ P V) (started : Instant) (number : Nat) : Prop where
  past : started ≤ s.now
  counted : number < s.tick
  gone : ∀ g ∈ s.gone, g.instant < started → g.number < number

/-- The entry was invalidated at or after the instant. -/
def Entry.staleAt {T : Type} (e : Entry P T) (t : Instant) : Prop :=
  ∃ at_, e.invalidated = some at_ ∧ t ≤ at_

structure Snapshots.EntryOk (s : Snapshots ρ P V) (key : SpaceKey) (e : Entry P (Answer P V)) :
    Prop where
  tagged : ∀ v t, e.good = some (v, t) → v.key = key ∧ v.plan = e.plan
  clocked : ∀ v t, e.good = some (v, t) → s.Clocked v.started v.number
  attempted : e.error = none → ∀ v t, e.good = some (v, t) → e.attempted = some v.started
  newer : ∀ g ∈ s.gone, g.key = key → ∀ v t, e.good = some (v, t) →
    e.staleAt g.instant ∨ g.number < v.number

def Snapshots.ReaderOk (s : Snapshots ρ P V) : Reader P V → Prop
  | .idle => True
  | .looking _ _ _ began => began < s.tick
  | .marked _ _ began => began < s.tick
  | .fetching key _ began started number =>
      began < number ∧ s.Clocked started number ∧ ∀ g ∈ s.gone, g.key = key →
        ∀ e, s.cache key = some e → e.staleAt g.instant ∨ g.number < number
  | .done key plan began read => began < s.tick ∧ s.Serves key plan began read

structure Snapshots.Ok (s : Snapshots ρ P V) : Prop where
  gone : ∀ g ∈ s.gone, g.instant ≤ s.now ∧ g.number < s.tick
  single : ∀ r r' key, s.InFlight r key → s.InFlight r' key → r = r'
  /-- The entry of a key that is being fetched is the one its reader marked. -/
  marked : ∀ r key plan, (s.readers r).flying = some (key, plan) → ∀ e, s.cache key = some e →
    e.inFlight = true ∧ e.plan = plan
  entries : ∀ key e, s.cache key = some e → s.EntryOk key e
  readers : ∀ r, s.ReaderOk (s.readers r)

/-- Time goes on, and what is gone later went at this step. -/
structure Snapshots.Later (s s' : Snapshots ρ P V) : Prop where
  now : s.now ≤ s'.now
  tick : s'.tick = s.tick + 1
  gone : ∀ g ∈ s'.gone, g ∈ s.gone ∨ (g.instant = s.now ∧ g.number = s.tick)

theorem Snapshots.Later.clocked (h : s.Later s') {started : Instant} {number : Nat}
    (hc : s.Clocked started number) : s'.Clocked started number where
  past := hc.past.trans h.now
  counted := by
    have := hc.counted
    have := h.tick
    omega
  gone g hg hlt := by
    rcases h.gone g hg with hold | ⟨hinstant, -⟩
    · exact hc.gone g hold hlt
    · rw [hinstant] at hlt
      exact absurd (hlt.trans_le hc.past) (lt_irrefl _)

theorem Snapshots.Later.serves (h : s.Later s') {key : SpaceKey} {plan : P} {began : Nat}
    {read : CacheRead (Answer P V)} (hbegan : began ≤ s.tick) (hs : s.Serves key plan began read) :
    s'.Serves key plan began read := by
  intro v age hgood
  obtain ⟨hkey, hplan, hnewer⟩ := hs v age hgood
  refine ⟨hkey, hplan, fun herror g hg hgkey hlt => ?_⟩
  rcases h.gone g hg with hold | ⟨-, hnumber⟩
  · exact hnewer herror g hold hgkey hlt
  · omega

/-- An entry that no step touched, if nothing of its key is gone. -/
theorem Snapshots.EntryOk.later {key : SpaceKey} {e : Entry P (Answer P V)} (he : s.EntryOk key e)
    (h : s.Later s') (hgone : ∀ g ∈ s'.gone, g.key = key → g ∈ s.gone) : s'.EntryOk key e where
  tagged := he.tagged
  clocked v t hv := h.clocked (he.clocked v t hv)
  attempted := he.attempted
  newer g hg hkey := he.newer g (hgone g hg hkey) hkey

/-- What a reader served by the cache gets. -/
theorem Snapshots.EntryOk.serves [DecidableEq P] {key : SpaceKey} {e : Entry P (Answer P V)}
    (he : s.EntryOk key e) {plan : P} {ttl : Nat}
    (hfresh : e.fresh plan ttl s.now = true) (began : Nat) :
    s.Serves key plan began (e.read s.now) := by
  intro v age hgood
  obtain ⟨⟨v, t⟩, hheld, heq⟩ := Option.map_eq_some_iff.mp hgood
  cases heq
  obtain ⟨hkey, hplan⟩ := he.tagged v t hheld
  unfold Entry.fresh at hfresh
  cases hattempted : e.attempted with
  | none => simp [hattempted] at hfresh
  | some attempted =>
      simp only [hattempted, Bool.and_eq_true, beq_iff_eq, Option.all_eq_true, decide_eq_true_eq]
        at hfresh
      obtain ⟨⟨hsame, -⟩, hvalid⟩ := hfresh
      refine ⟨hkey, hplan.trans hsame, fun herror g hg hgkey _ => ?_⟩
      rcases he.newer g hg hgkey v t hheld with ⟨at_, hinvalidated, hle⟩ | hnewer
      · have hstarted := he.attempted herror v t hheld
        rw [hattempted, Option.some.injEq] at hstarted
        have hlt := hvalid at_ hinvalidated
        exact (he.clocked v t hheld).gone g hg (hstarted ▸ hle.trans_lt hlt)
      · exact hnewer

/-- A reader that did not move, if its key still has the entry it had, or an older excuse for it. -/
theorem Snapshots.Later.readerOk (h : s.Later s') {q : Reader P V} (hq : s.ReaderOk q)
    (hkey : ∀ key plan, q.flying = some (key, plan) → ∀ g ∈ s'.gone, g.key = key →
      ∀ e, s'.cache key = some e →
      e.staleAt g.instant ∨ (g ∈ s.gone ∧ s.cache key = some e)) : s'.ReaderOk q := by
  have htick := h.tick
  cases q with
  | idle => trivial
  | looking key plan ttl began => exact Nat.lt_of_lt_of_le hq (by omega)
  | marked key plan began => exact Nat.lt_of_lt_of_le hq (by omega)
  | fetching key plan began started number =>
      obtain ⟨hbegan, hclocked, hnewer⟩ := hq
      refine ⟨hbegan, h.clocked hclocked, fun g hg hgkey e he => ?_⟩
      rcases hkey key plan rfl g hg hgkey e he with hstale | ⟨hold, hsame⟩
      · exact .inl hstale
      · exact hnewer g hold hgkey e hsame
  | done key plan began read => exact ⟨Nat.lt_of_lt_of_le hq.1 (by omega), h.serves hq.1.le hq.2⟩

theorem Snapshots.entryOk_missing (s : Snapshots ρ P V) (key : SpaceKey) (plan : P) :
    s.EntryOk key (.missing plan) where
  tagged := by simp [Entry.missing]
  clocked := by simp [Entry.missing]
  attempted := by simp [Entry.missing]
  newer := by simp [Entry.missing]

theorem Snapshots.EntryOk.mark [DecidableEq P] {key : SpaceKey} {e : Entry P (Answer P V)}
    (he : s.EntryOk key e) (plan : P) : s.EntryOk key (e.mark plan) := by
  unfold Entry.mark
  split
  · exact { he with }
  · exact
      { tagged := by simp
        clocked := by simp
        attempted := by simp
        newer := by simp }

/-- The entry after its fetch. -/
theorem Snapshots.EntryOk.settle {key : SpaceKey} {e : Entry P (Answer P V)} (he : s.EntryOk key e)
    {plan : P} {started : Instant} {number : Nat} {outcome : Except String V}
    (hclocked : s.Clocked started number) (hplan : e.plan = plan)
    (hnewer : ∀ g ∈ s.gone, g.key = key → e.staleAt g.instant ∨ g.number < number) :
    s.EntryOk key (e.settle started s.now
      (outcome.map fun value => { value, key, plan, started, number })) := by
  cases outcome with
  | ok value =>
      exact
        { tagged := by
            rintro v t ⟨⟩
            exact ⟨rfl, hplan.symm⟩
          clocked := by
            rintro v t ⟨⟩
            exact hclocked
          attempted := by
            rintro - v t ⟨⟩
            rfl
          newer := by
            rintro g hg hkey v t ⟨⟩
            exact hnewer g hg hkey }
  | error error =>
      exact
        { tagged := he.tagged
          clocked := he.clocked
          attempted := by
            rintro ⟨⟩
          newer := he.newer }

/-- What a reader that fetched gets from the entry it settled. -/
theorem Snapshots.EntryOk.serves_settled {key : SpaceKey} {e : Entry P (Answer P V)}
    (he : s.EntryOk key e) {plan : P}
    {began : Nat} (started : Instant) {number : Nat} (outcome : Except String V)
    (hbegan : began < number) (hplan : e.plan = plan) : s.Serves key plan began
      ((e.settle started s.now
        (outcome.map fun value => { value, key, plan, started, number })).read s.now) := by
  intro v age hgood
  cases outcome with
  | ok value =>
      cases hgood
      exact ⟨rfl, rfl, fun _ g _ _ hlt => hlt.trans hbegan⟩
  | error error =>
      obtain ⟨⟨v, t⟩, hold, heq⟩ := Option.map_eq_some_iff.mp hgood
      cases heq
      obtain ⟨hkey, htag⟩ := he.tagged v t hold
      exact ⟨hkey, htag.trans hplan, fun herror => by cases herror⟩

/-- What a reader that fetched gets when its entry is gone. -/
theorem Snapshots.serves_alone (s : Snapshots ρ P V) {key : SpaceKey} {plan : P} {began : Nat}
    (started : Instant) {number : Nat} (outcome : Except String V) (hbegan : began < number)
    (hnone : s.cache key = none) : s.Serves key plan began
      (s.cache.settle key started s.now
        (outcome.map fun value => { value, key, plan, started, number })).1 := by
  intro v age hgood
  simp only [SnapshotCache.settle, hnone] at hgood
  cases outcome with
  | ok value =>
      cases hgood
      exact ⟨rfl, rfl, fun _ g _ _ hlt => hlt.trans hbegan⟩
  | error error => cases hgood

theorem Snapshots.ok_new : (Snapshots.new : Snapshots ρ P V).Ok where
  gone g hg := by cases hg
  single r r' key hr hr' := by
    obtain ⟨plan, hplan⟩ := hr
    cases hplan
  marked r key plan hr e he := by cases he
  entries key e he := by cases he
  readers r := trivial

theorem Snapshots.Ok.sound (h : s.Ok) : s.Sound where
  serves r key plan began read hr := by
    have hready := h.readers r
    rw [hr] at hready
    exact hready.2
  single := h.single

theorem Snapshots.Later.goneOk (h : s.Later s')
    (hgone : ∀ g ∈ s.gone, g.instant ≤ s.now ∧ g.number < s.tick) :
    ∀ g ∈ s'.gone, g.instant ≤ s'.now ∧ g.number < s'.tick := by
  intro g hg
  have hnow := h.now
  have htick := h.tick
  rcases h.gone g hg with hold | ⟨hinstant, hnumber⟩
  · obtain ⟨hthen, hnumber⟩ := hgone g hold
    exact ⟨hthen.trans hnow, by omega⟩
  · exact ⟨hinstant.le.trans hnow, by omega⟩

/-- Nothing but the clock moves. -/
theorem Snapshots.Ok.still (h : s.Ok) (hlater : s.Later s') (hgone : s'.gone = s.gone)
    (hcache : s'.cache = s.cache) (hreaders : s'.readers = s.readers) : s'.Ok where
  gone := hlater.goneOk h.gone
  single u v key hu hv := h.single u v key (by simpa [Snapshots.InFlight, hreaders] using hu)
    (by simpa [Snapshots.InFlight, hreaders] using hv)
  marked u key plan hu e he := h.marked u key plan (hreaders ▸ hu) e (hcache ▸ he)
  entries key e he := (h.entries key e (hcache ▸ he)).later hlater fun g hg _ => hgone ▸ hg
  readers u := by
    rw [hreaders]
    exact hlater.readerOk (h.readers u) fun key plan _ g hg _ e he => .inr ⟨hgone ▸ hg, hcache ▸ he⟩

/-- The key is invalidated or removed: what is left of its entry is stale. -/
theorem Snapshots.Ok.goes_stale (h : s.Ok) {key : SpaceKey} {e' : Option (Entry P (Answer P V))}
    (he' : e' = none ∨ ∃ e, s.cache key = some e ∧ e' = some { e with invalidated := some s.now }) :
    ({ s with
      cache := s.cache.set key e', gone := ⟨key, s.now, s.tick⟩ :: s.gone,
      tick := s.tick + 1 } : Snapshots ρ P V).Ok := by
  have hlater : s.Later { s with
      cache := s.cache.set key e', gone := ⟨key, s.now, s.tick⟩ :: s.gone, tick :=
        s.tick + 1 } := by
    refine ⟨le_refl _, rfl, fun g hg => ?_⟩
    rcases List.mem_cons.mp hg with rfl | hg
    · exact .inr ⟨rfl, rfl⟩
    · exact .inl hg
  have hstale : ∀ e, e' = some e →
      ∀ g ∈ (⟨key, s.now, s.tick⟩ :: s.gone : List Gone), e.staleAt g.instant := by
    rintro e rfl g hg
    rcases he' with hnone | ⟨e₀, -, heq⟩
    · cases hnone
    · cases heq
      refine ⟨s.now, rfl, ?_⟩
      rcases List.mem_cons.mp hg with rfl | hg
      · exact le_refl _
      · exact (h.gone g hg).1
  have hother {k : SpaceKey} (hk : k ≠ key) : s.cache.set key e' k = s.cache k :=
    Function.update_of_ne hk ..
  have hself : s.cache.set key e' key = e' := Function.update_self ..
  refine
    { gone := hlater.goneOk h.gone
      single := h.single
      marked := fun u k plan hu e he => ?_
      entries := fun k e he => ?_
      readers := fun u => hlater.readerOk (h.readers u) fun k plan hu g hg hgkey e he => ?_ }
  · by_cases hk : k = key
    · subst hk
      replace he := hself.symm.trans he
      rcases he' with hnone | ⟨e₀, hc, heq⟩
      · rw [hnone] at he
        cases he
      · rw [heq] at he
        cases he
        exact h.marked u k plan hu e₀ hc
    · exact h.marked u k plan hu e (hother hk ▸ he)
  · by_cases hk : k = key
    · subst hk
      replace he := hself.symm.trans he
      rcases he' with hnone | ⟨e₀, hc, heq⟩
      · rw [hnone] at he
        cases he
      · rw [heq] at he
        cases he
        have hold := h.entries k e₀ hc
        exact
          { tagged := hold.tagged
            clocked := fun v t hv => hlater.clocked (hold.clocked v t hv)
            attempted := hold.attempted
            newer := fun g hg _ v t _ => .inl (hstale _ heq g hg) }
    · refine (h.entries k e (hother hk ▸ he)).later hlater fun g hg hgkey => ?_
      rcases List.mem_cons.mp hg with rfl | hg
      · exact absurd hgkey.symm hk
      · exact hg
  · by_cases hk : k = key
    · subst hk
      exact .inl (hstale e (hself ▸ he) g hg)
    · rcases List.mem_cons.mp hg with rfl | hg
      · exact absurd hgkey.symm hk
      · exact .inr ⟨hg, hother hk ▸ he⟩

variable [DecidableEq ρ]

theorem Snapshots.Ok.single_update (h : s.Ok) {q : Reader P V}
    (hreaders : s'.readers = Function.update s.readers r q)
    (hq : ∀ key plan, q.flying = some (key, plan) → s.InFlight r key ∨ ∀ r', ¬s.InFlight r' key) :
    ∀ u v key, s'.InFlight u key → s'.InFlight v key → u = v := by
  have hold {u : ρ} {key : SpaceKey} (hu : s'.InFlight u key) :
      (u = r ∧ (s.InFlight r key ∨ ∀ r', ¬s.InFlight r' key)) ∨ (u ≠ r ∧ s.InFlight u key) := by
    obtain ⟨plan, hplan⟩ := hu
    rw [hreaders] at hplan
    by_cases hur : u = r
    · rw [hur, Function.update_self] at hplan
      exact .inl ⟨hur, hq key plan hplan⟩
    · rw [Function.update_of_ne hur] at hplan
      exact .inr ⟨hur, plan, hplan⟩
  intro u v key hu hv
  rcases hold hu with ⟨rfl, hr | hnone⟩ | ⟨hur, hu⟩ <;> rcases hold hv with
      ⟨rfl, hr' | hnone'⟩ | ⟨hvr, hv⟩
  · rfl
  · rfl
  · exact h.single _ _ key hr hv
  · rfl
  · rfl
  · exact absurd hv (hnone v)
  · exact h.single _ _ key hu hr'
  · exact absurd hu (hnone' u)
  · exact h.single _ _ key hu hv

/-- A step that moves one reader and leaves the cache. -/
theorem Snapshots.Ok.move (h : s.Ok) (hlater : s.Later s') (hgone : s'.gone = s.gone)
    (hcache : s'.cache = s.cache)
    {q : Reader P V} (hreaders : s'.readers = Function.update s.readers r q) (hq : s'.ReaderOk q)
    (hflying : q.flying = none ∨ q.flying = (s.readers r).flying) : s'.Ok where
  gone := hlater.goneOk h.gone
  single := by
    refine h.single_update hreaders fun key plan hplan => .inl ?_
    rcases hflying with hnone | hsame
    · simp [hnone] at hplan
    · exact ⟨plan, hsame ▸ hplan⟩
  marked u key plan hu e he := by
    rw [hcache] at he
    rw [hreaders] at hu
    by_cases hur : u = r
    · rw [hur, Function.update_self] at hu
      rcases hflying with hnone | hsame
      · simp [hnone] at hu
      · exact h.marked r key plan (hsame ▸ hu) e he
    · rw [Function.update_of_ne hur] at hu
      exact h.marked u key plan hu e he
  entries key e he := (h.entries key e (hcache ▸ he)).later hlater fun g hg _ => hgone ▸ hg
  readers u := by
    rw [hreaders]
    by_cases hur : u = r
    · rw [hur, Function.update_self]
      exact hq
    · rw [Function.update_of_ne hur]
      exact hlater.readerOk (h.readers u) fun key plan _ g hg _ e he =>
        .inr ⟨hgone ▸ hg, hcache ▸ he⟩

/-- A step of the one reader that fetches for the key, or of one that is about to, which
changes its entry. -/
theorem Snapshots.Ok.touch (h : s.Ok) (hlater : s.Later s') (hgone : s'.gone = s.gone)
    {key : SpaceKey} {e' : Option (Entry P (Answer P V))} (hcache : s'.cache = s.cache.set key e')
    {q : Reader P V} (hreaders : s'.readers = Function.update s.readers r q) (hq : s'.ReaderOk q)
    (hother : ∀ u, u ≠ r → ¬s.InFlight u key)
    (hflying : ∀ k plan, q.flying = some (k, plan) → k = key)
    (hmarked : ∀ plan, q.flying = some (key, plan) → ∀ e, e' = some e →
    e.inFlight = true ∧ e.plan = plan) (hentry : ∀ e, e' = some e → s'.EntryOk key e) : s'.Ok where
  gone := hlater.goneOk h.gone
  single := by
    refine h.single_update hreaders fun k plan hplan => ?_
    by_cases hr : s.InFlight r key
    · exact .inl (hflying k plan hplan ▸ hr)
    · refine .inr fun u hu => ?_
      rw [hflying k plan hplan] at hu
      by_cases hur : u = r
      · exact hr (hur ▸ hu)
      · exact hother u hur hu
  marked u k plan hu e he := by
    rw [hcache, SnapshotCache.set] at he
    rw [hreaders] at hu
    by_cases hur : u = r
    · rw [hur, Function.update_self] at hu
      have hk := hflying k plan hu
      subst hk
      rw [Function.update_self] at he
      exact hmarked plan hu e he
    · rw [Function.update_of_ne hur] at hu
      have hk : k ≠ key := fun hk => hother u hur ⟨plan, hk ▸ hu⟩
      rw [Function.update_of_ne hk] at he
      exact h.marked u k plan hu e he
  entries k e he := by
    rw [hcache, SnapshotCache.set] at he
    by_cases hk : k = key
    · subst hk
      rw [Function.update_self] at he
      exact hentry e he
    · rw [Function.update_of_ne hk] at he
      exact (h.entries k e he).later hlater fun g hg _ => hgone ▸ hg
  readers u := by
    rw [hreaders]
    by_cases hur : u = r
    · rw [hur, Function.update_self]
      exact hq
    · rw [Function.update_of_ne hur]
      refine hlater.readerOk (h.readers u) fun k plan hu g hg _ e he => .inr ⟨hgone ▸ hg, ?_⟩
      have hk : k ≠ key := fun hk => hother u hur ⟨plan, hk ▸ hu⟩
      rwa [hcache, SnapshotCache.set, Function.update_of_ne hk] at he

/-! ## Every step -/

variable [DecidableEq P]

theorem Snapshots.later_next (s : Snapshots ρ P V) (a : Action ρ P V)
    (hgone : (s.act a).gone = s.gone) (hnow : (s.act a).now = s.now) : s.Later (s.next a) where
  now := hnow.ge
  tick := by simp [Snapshots.next]
  gone g hg := .inl (hgone ▸ hg)

theorem Snapshots.Ok.noop (h : s.Ok) (hact : s.act a = s) : (s.next a).Ok := by
  have hlater := Snapshots.later_next s a (by rw [hact]) (by rw [hact])
  refine h.still hlater ?_ ?_ ?_ <;> rw [Snapshots.next, hact]

/-- A step in which one reader goes on. -/
theorem Snapshots.Ok.goes (h : s.Ok) {q : Reader P V} (hact : s.act a = s.goto r q)
    (hq : s.Later { s.goto r q with tick := s.tick + 1 } →
      ({ s.goto r q with tick := s.tick + 1 } : Snapshots ρ P V).ReaderOk q)
    (hflying : q.flying = none ∨ q.flying = (s.readers r).flying) : (s.next a).Ok := by
  have hlater := Snapshots.later_next s a (by rw [hact]; rfl) (by rw [hact]; rfl)
  have hnext : s.next a = { s.goto r q with tick := s.tick + 1 } := by rw [Snapshots.next, hact]
  rw [hnext] at hlater ⊢
  exact h.move hlater rfl rfl rfl (hq hlater) hflying

theorem mark_inFlight {T : Type} (e : Entry P T) (plan : P) :
    (e.mark plan).inFlight = true ∧ (e.mark plan).plan = plan := by
  unfold Entry.mark
  split
  · next h => exact ⟨rfl, h⟩
  · exact ⟨rfl, rfl⟩

theorem Snapshots.Ok.look (h : s.Ok) (hroom : FindsNoFetch s (.look r)) :
    (s.next (.look r)).Ok := by
  cases hr : s.readers r with
  | looking key plan ttl began =>
      have hbegan : began < s.tick := by
        have := h.readers r
        rwa [hr] at this
      -- the reader goes to fetch, and marks the entry it leaves behind
      have hfetch (e : Entry P (Answer P V)) (hentry : s.EntryOk key e)
          (he : e.inFlight = true ∧ e.plan = plan) (hnone : ∀ u, ¬s.InFlight u key)
          (hnext : s.next (.look r) =
            { s with
              cache := s.cache.set key (some e)
              readers := Function.update s.readers r (.marked key plan began)
              tick := s.tick + 1 }) : (s.next (.look r)).Ok := by
        rw [hnext]
        have hlater : s.Later { s with
            cache := s.cache.set key (some e)
            readers := Function.update s.readers r (.marked key plan began)
            tick := s.tick + 1 } := ⟨le_refl _, rfl, fun g hg => .inl hg⟩
        refine h.touch (q := .marked key plan began) hlater rfl rfl rfl (Nat.lt_succ_of_lt hbegan)
          (fun u _ => hnone u) ?_ ?_ ?_
        · rintro k plan' ⟨⟩
          rfl
        · rintro plan' ⟨⟩ _ ⟨⟩
          exact he
        · rintro _ ⟨⟩
          exact hentry.later hlater fun g hg _ => hg
      cases hc : s.cache key with
      | some e =>
          by_cases hfresh : e.fresh plan ttl s.now = true
          · have hact : s.act (.look r) = s.goto r (.done key plan began (e.read s.now)) := by
              simp [Snapshots.act, hr, SnapshotCache.look, hc, hfresh, Snapshots.goto]
            have hserves := (h.entries key e hc).serves hfresh began
            refine h.goes hact (fun hlater => ⟨Nat.lt_succ_of_lt hbegan, ?_⟩) (.inl rfl)
            exact hlater.serves hbegan.le hserves
          · cases hflight : e.inFlight with
            | true =>
                have hact : s.act (.look r) = s := by
                  simp [Snapshots.act, hr, SnapshotCache.look, hc, hfresh, hflight]
                exact h.noop hact
            | false =>
                have hnone : ∀ u, ¬s.InFlight u key := by
                  rintro u ⟨plan', hu⟩
                  have := (h.marked u key plan' hu e hc).1
                  simp [hflight] at this
                refine hfetch (e.mark plan) ((h.entries key e hc).mark plan)
                  (mark_inFlight e plan) hnone ?_
                simp [Snapshots.next, Snapshots.act, hr, SnapshotCache.look, hc, hfresh, hflight,
                  Snapshots.goto]
      | none =>
          refine hfetch (.missing plan) (s.entryOk_missing key plan) ⟨rfl, rfl⟩
            (hroom r key plan ttl began rfl hr hc) ?_
          simp [Snapshots.next, Snapshots.act, hr, SnapshotCache.look, hc, Snapshots.goto]
  | _ => exact h.noop (by simp [Snapshots.act, hr])

theorem Snapshots.Ok.start (h : s.Ok) : (s.next (.start r)).Ok := by
  cases hr : s.readers r with
  | marked key plan began =>
      have hbegan : began < s.tick := by
        have := h.readers r
        rwa [hr] at this
      have hact : s.act (.start r) = s.goto r (.fetching key plan began s.now s.tick) := by
        simp [Snapshots.act, hr]
      refine h.goes hact (fun hlater => ⟨hbegan, ?_, ?_⟩) (.inr (by rw [hr]; rfl))
      · exact ⟨le_refl _, Nat.lt_succ_self _, fun g hg _ => (h.gone g hg).2⟩
      · exact fun g hg _ e _ => .inr (h.gone g hg).2
  | _ => exact h.noop (by simp [Snapshots.act, hr])

theorem Snapshots.Ok.finish (h : s.Ok) (outcome : Except String V) :
    (s.next (.finish r outcome)).Ok := by
  cases hr : s.readers r with
  | fetching key plan began started number =>
      obtain ⟨hbegan, hclocked, hnewer⟩ : began < number ∧ s.Clocked started number ∧
          ∀ g ∈ s.gone, g.key = key →
          ∀ e, s.cache key = some e → e.staleAt g.instant ∨ g.number < number := by
        have := h.readers r
        rwa [hr] at this
      have hflight : s.InFlight r key := ⟨plan, by rw [hr]; rfl⟩
      have hother : ∀ u, u ≠ r → ¬s.InFlight u key :=
        fun u hur hu => hur (h.single u r key hu hflight)
      have hlt : began < s.tick := hbegan.trans hclocked.counted
      -- the answer is handed out, and the entry is what `e'` says
      have hdone (read : CacheRead (Answer P V)) (e' : Option (Entry P (Answer P V)))
          (hserves : s.Serves key plan began read) (hentry : ∀ e, e' = some e → s.EntryOk key e)
          (hnext : s.next (.finish r outcome) =
            { s with
              cache := s.cache.set key e'
              readers := Function.update s.readers r (.done key plan began read)
              tick := s.tick + 1 }) : (s.next (.finish r outcome)).Ok := by
        rw [hnext]
        have hlater : s.Later { s with
            cache := s.cache.set key e'
            readers := Function.update s.readers r (.done key plan began read)
            tick := s.tick + 1 } := ⟨le_refl _, rfl, fun g hg => .inl hg⟩
        refine h.touch (q := .done key plan began read) hlater rfl rfl rfl
          ⟨Nat.lt_succ_of_lt hlt, hlater.serves hlt.le hserves⟩ hother ?_ ?_ ?_
        · rintro k plan' ⟨⟩
        · rintro plan' ⟨⟩
        · exact fun e he => (hentry e he).later hlater fun g hg _ => hg
      cases hc : s.cache key with
      | some e =>
          have hplan := (h.marked r key plan (by rw [hr]; rfl) e hc).2
          refine hdone _ (some
            (e.settle started s.now
              (outcome.map fun value => { value, key, plan, started, number })))
            ((h.entries key e hc).serves_settled started outcome hbegan hplan) ?_
            (by simp [Snapshots.next, Snapshots.act, hr, SnapshotCache.settle, hc, Snapshots.goto])
          rintro _ ⟨⟩
          exact (h.entries key e hc).settle hclocked hplan fun g hg hkey => hnewer g hg hkey e hc
      | none =>
          have hset : s.cache.set key none = s.cache := by
            rw [SnapshotCache.set, ← hc, Function.update_eq_self]
          refine hdone _ none (s.serves_alone started outcome hbegan hc) (by simp) ?_
          simp [Snapshots.next, Snapshots.act, hr, Snapshots.goto, hset, SnapshotCache.settle, hc]
  | _ => exact h.noop (by simp [Snapshots.act, hr])

theorem Snapshots.Ok.unwind (h : s.Ok) : (s.next (.unwind r)).Ok := by
  cases hr : s.readers r with
  | fetching key plan began started number =>
      have hflight : s.InFlight r key := ⟨plan, by rw [hr]; rfl⟩
      have hnext : s.next (.unwind r) =
          { s with
            cache := s.cache.set key ((s.cache key).map fun e => { e with inFlight := false })
            readers := Function.update s.readers r .idle
            tick := s.tick + 1 } := by
        simp [Snapshots.next, Snapshots.act, hr, Snapshots.goto, SnapshotCache.unwind]
      rw [hnext]
      have hlater : s.Later { s with
          cache := s.cache.set key ((s.cache key).map fun e => { e with inFlight := false })
          readers := Function.update s.readers r .idle
          tick := s.tick + 1 } := ⟨le_refl _, rfl, fun g hg => .inl hg⟩
      refine h.touch (q := .idle) hlater rfl rfl rfl trivial
        (fun u hur hu => hur (h.single u r key hu hflight)) (by simp [Reader.flying])
          (by simp [Reader.flying]) ?_
      intro e he
      obtain ⟨e, hc, rfl⟩ := Option.map_eq_some_iff.mp he
      have hentry := (h.entries key e hc).later hlater fun g hg _ => hg
      exact { hentry with }
  | _ => exact h.noop (by simp [Snapshots.act, hr])

theorem Snapshots.Ok.call (h : s.Ok) (key : SpaceKey) (plan : P) (ttl : Nat) :
    (s.next (.call r key plan ttl)).Ok := by
  cases hr : s.readers r with
  | idle =>
      have hact : s.act (.call r key plan ttl) = s.goto r (.looking key plan ttl s.tick) := by
        simp [Snapshots.act, hr]
      exact h.goes hact (fun _ => Nat.lt_succ_self s.tick) (.inl rfl)
  | _ => exact h.noop (by simp [Snapshots.act, hr])

theorem Snapshots.Ok.return (h : s.Ok) : (s.next (.return r)).Ok := by
  cases hr : s.readers r with
  | done key plan began read =>
      have hact : s.act (.return r) = s.goto r .idle := by simp [Snapshots.act, hr]
      exact h.goes hact (fun _ => trivial) (.inl rfl)
  | _ => exact h.noop (by simp [Snapshots.act, hr])

theorem Snapshots.Ok.advance (h : s.Ok) (d : Nat) : (s.next (.advance d)).Ok :=
  h.still ⟨Nat.le_add_right _ _, rfl, fun _ hg => .inl hg⟩ rfl rfl rfl

theorem Snapshots.Ok.next (h : s.Ok) (hroom : FindsNoFetch s a) : (s.next a).Ok := by
  cases a with
  | call r key plan ttl => exact h.call key plan ttl
  | look r => exact h.look hroom
  | start r => exact h.start
  | finish r outcome => exact h.finish outcome
  | unwind r => exact h.unwind
  | «return» r => exact h.return
  | invalidate key =>
      cases hc : s.cache key with
      | some e =>
          have hgone := h.goes_stale (.inr ⟨e, hc, rfl⟩)
          simpa [Snapshots.next, Snapshots.act, SnapshotCache.invalidate, hc] using hgone
      | none =>
          have hset : s.cache.set key none = s.cache := by
            rw [SnapshotCache.set, ← hc, Function.update_eq_self]
          have hgone := @Snapshots.Ok.goes_stale _ _ _ s h key none (.inl rfl)
          rw [hset] at hgone
          simpa [Snapshots.next, Snapshots.act, SnapshotCache.invalidate, hc] using hgone
  | remove key => exact h.goes_stale (.inl rfl)
  | advance d => exact h.advance d

/-! ## Sound exactly as long as no fetch is overlapped -/

theorem cache_sound_iff_no_overlap :
    -- in every run in which a reader that finds no entry finds no fetch of the key under way
    (∀ s : Snapshots ρ P V, (snapshots ρ P V).ReachableBy FindsNoFetch s → s.Sound) ∧
    -- and a step in which one does starts a second fetch of the key
    ∀ (s : Snapshots ρ P V) (a : Action ρ P V), (snapshots ρ P V).Reachable s → ¬FindsNoFetch s a →
      ¬(s.next a).Sound := by
  refine ⟨fun s h => ?_, fun s a _ hroom hsound => hroom ?_⟩
  · have hok : s.Ok := by
      refine h.invariant ?_ ?_
      · rintro s rfl
        exact Snapshots.ok_new
      · rintro s a _ hs hroom rfl
        exact hs.next hroom
    exact hok.sound
  · rintro r key plan ttl began rfl hr hc r' ⟨plan', hr'⟩
    have hne : r' ≠ r := by
      rintro rfl
      rw [hr] at hr'
      cases hr'
    have hreaders : (s.next (.look r)).readers = Function.update s.readers r
        (.marked key plan began) := by
      simp [Snapshots.next, Snapshots.act, hr, SnapshotCache.look, hc, Snapshots.goto]
    have hmarked : (s.next (.look r)).InFlight r key :=
      ⟨plan, by rw [hreaders, Function.update_self]; rfl⟩
    have hother : (s.next (.look r)).InFlight r' key :=
      ⟨plan', by rw [hreaders, Function.update_of_ne hne, hr']⟩
    exact hne (hsound.single r' r key hother hmarked)

theorem reachable_run (h : (snapshots ρ P V).Reachable s) (actions : List (Action ρ P V)) :
    (snapshots ρ P V).Reachable (s.run actions) := by
  induction actions generalizing s with
  | nil => exact h
  | cons a actions ih => exact ih (h.step trivial rfl)

/-- A workspace of a herdr session. -/
def sampleSpace : SpaceKey := ⟨"alpha", "w1"⟩

/-- A reader fetches for plan 1, and the next one reads what it fetched. -/
def readTwice : List (Action Bool Nat Unit) :=
  [ .call false sampleSpace 1 60, .look false, .start false, .finish false (.ok ()),
    .call true sampleSpace 1 60, .look true ]

theorem cache_sound_iff_no_overlap_twice : (Snapshots.new.run readTwice).Sound ∧
    (Snapshots.new.run readTwice).readers true = .done sampleSpace 1 4
      { good := some (⟨(), sampleSpace, 1, 0, 2⟩, 0), error := none } := by
  have hother {s : Snapshots Bool Nat Unit} (a : Action Bool Nat Unit) (ha : ∀ r, a ≠ .look r)
      (hs : (snapshots Bool Nat Unit).ReachableBy FindsNoFetch s) :
      (snapshots Bool Nat Unit).ReachableBy FindsNoFetch (s.next a) :=
    hs.step (fun r _ _ _ _ hlook => absurd hlook (ha r)) rfl
  have hcalled := hother (.call false sampleSpace 1 60) (by simp) (.init rfl)
  have hlooked := hcalled.step (l := .look false) (by
    rintro r key plan ttl began - - - r' ⟨plan', hflying⟩
    cases r' <;> cases hflying) rfl
  have hfetched := hother (.finish false (.ok ())) (by simp) <|
    hother (.start false) (by simp) hlooked
  have hread := (hother (.call true sampleSpace 1 60) (by simp) hfetched).step (l := .look true) (by
    rintro r key plan ttl began ⟨⟩ hlooking hnone
    cases hlooking
    cases hnone) rfl
  exact ⟨cache_sound_iff_no_overlap.1 _ hread, rfl⟩

/-- The space is removed under a fetch for plan 1, and read again for plan 2 before
that fetch ends. -/
def removedUnderFetch : List (Action Nat Nat Unit) :=
  [ .call 0 sampleSpace 1 60, .look 0, .start 0,
    .remove sampleSpace,
    .call 1 sampleSpace 2 60, .look 1,
    .finish 0 (.ok ()),
    .call 2 sampleSpace 2 60, .look 2 ]

/-- The third reader, which asks for plan 2 after the removal, gets the answer of plan 1
from before it. -/
theorem removed_answer_served :
    (snapshots Nat Nat Unit).Reachable (Snapshots.new.run removedUnderFetch) ∧
    (Snapshots.new.run removedUnderFetch).readers 2 = .done sampleSpace 2 7
      { good := some (⟨(), sampleSpace, 1, 0, 2⟩, 0), error := none } ∧
    ¬(Snapshots.new.run removedUnderFetch).Sound := by
  refine ⟨reachable_run (System.ReachableBy.init rfl) _, rfl, fun hsound => ?_⟩
  have hserved := hsound.serves 2 sampleSpace 2 7 _ rfl _ _ rfl
  exact absurd hserved.2.1 (by decide)

end HerdrBoard.Linear
