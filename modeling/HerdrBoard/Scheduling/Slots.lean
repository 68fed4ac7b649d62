import HerdrBoard.Lifecycle.Launches

/-!
# Runs and the spaces they occupy

A run in a phase occupies the space of its card. What a step of the daemon may do to that.
-/

open Lib HerdrBoard.Core HerdrBoard.Daemon HerdrBoard.Lifecycle

namespace HerdrBoard.Scheduling

variable {l l' : Life} {e : Event} {E : Event → Prop} {db db' : Db} {p : Run → Bool} {id : Int}
    {k : SpaceKey}

/-- The run of the id is in phase `p`, and its card in the space. -/
def InSpace (l : Life) (p : Run → Bool) (id : Int) (k : SpaceKey) : Prop :=
  ∃ r ∈ l.runs, r.id = id ∧ p r = true ∧ ∃ c ∈ l.cards, c.id = r.cardId ∧ c.space = k

/-- A started run. -/
abbrev Holds (l : Life) : Int → SpaceKey → Prop := InSpace l Run.isActive

/-- A queued run. -/
abbrev Waits (l : Life) : Int → SpaceKey → Prop := InSpace l Run.isQueued

theorem inSpace_life : InSpace (life db.toTables) p id k ↔
    ∃ r ∈ db.runs, r.id = id ∧ p r = true ∧ ∃ c, db.card? r.cardId = some c ∧
      SpaceKey.fromCard c = k := by
  constructor
  · rintro ⟨r, hr, hid, hp, _, hc, hcid, hk⟩
    obtain ⟨c, hcard, rfl⟩ := mem_cardStates.mp hc
    exact ⟨r, hr, hid, hp, c, Table.find?_eq_some.mpr ⟨hcard, hcid⟩, hk⟩
  · rintro ⟨r, hr, hid, hp, c, hc, hk⟩
    obtain ⟨hcard, hcid⟩ := Table.find?_eq_some.mp hc
    exact ⟨r, hr, hid, hp, cardState c, mem_cardStates.mpr ⟨c, hcard, rfl⟩, hcid, hk⟩

/-! ## One space a run -/

theorem InSpace.unique (h : InSpace l p id k) {p' : Run → Bool} {k' : SpaceKey}
    (h' : InSpace l p' id k') : k = k' := by
  obtain ⟨r, hr, hid, -, c, hc, hcid, rfl⟩ := h
  obtain ⟨r', hr', hid', -, c', hc', hcid', rfl⟩ := h'
  cases Table.eq_of_key_eq hr hr' (hid.trans hid'.symm)
  cases Table.eq_of_key_eq hc hc' (hcid.trans hcid'.symm)
  rfl

/-- The run of the id has ended. -/
def Ended (l : Life) (id : Int) : Prop := ∃ r ∈ l.runs, r.id = id ∧ r.isOpen = false

theorem not_holds_of_waits (h : Waits l id k) {k' : SpaceKey} : ¬Holds l id k' := by
  rintro ⟨r', hr', hid', hp', -⟩
  obtain ⟨r, hr, hid, hp, -⟩ := h
  cases Table.eq_of_key_eq hr hr' (hid.trans hid'.symm)
  simp only [Run.isActive, Run.isQueued, Bool.and_eq_true, Option.isSome_iff_ne_none,
    Option.isNone_iff_eq_none] at hp hp'
  exact hp'.1 hp.1

/-! ## One event -/

/-- While a run is open, its card stays in its space. -/
theorem Step.inSpace_back (hinv : Inv l) (h : Step l e l') {r : Run} (hr : r ∈ l.runs)
    (hopen : r.isOpen = true)
    (hp : p r = true) {c' : CardState} (hc' : c' ∈ l'.cards) (hcid : c'.id = r.cardId) :
    InSpace l p r.id c'.space := by
  rcases h.card_back hc' with ⟨c, hc, hid, hspace | hclosed⟩ | hnew
  · exact ⟨r, hr, rfl, hp, c, hc, hid.trans hcid, hspace⟩
  · exact absurd hopen (by simp [hclosed r hr (hid.trans hcid).symm])
  · obtain ⟨c, hc, howner⟩ := hinv.owned r hr
    have hlt : c.id < l.cards.nextKey := Table.lt_nextKey hc
    omega

theorem Step.holds_back (hinv : Inv l) (h : Step l e l') (hh : Holds l' id k) :
    Holds l id k ∨ (Waits l id k ∧ ∃ a, e = .promote id a) := by
  obtain ⟨r', hr', rfl, hactive', c', hc', hcid, rfl⟩ := hh
  rcases h.run_back hr' with ⟨r, hr, hev⟩ | hins
  · cases hev with
    | same =>
        exact .inl (Step.inSpace_back hinv h hr (isOpen_of_isActive hactive') hactive' hc' hcid)
    | promote _ a hqueued =>
        exact .inr ⟨Step.inSpace_back hinv h hr (isOpen_of_isQueued hqueued) hqueued hc'
          hcid, a, rfl⟩
    | signal _ deadline paused hactive =>
        exact .inl (Step.inSpace_back hinv h hr (isOpen_of_isActive hactive) hactive hc' hcid)
    | finish _ now outcome summary hopen => exact absurd hactive' (by simp [endedRun, Run.isActive])
    | hop _ next now outcome summary hopen =>
        exact absurd hactive' (by simp [endedRun, Run.isActive])
  · cases hins <;> simp [queuedRun, Run.isActive] at hactive'

/-- A started run keeps its space, or ends; a deletion ends no run. -/
theorem Step.holds_forth (hinv : Inv l) (h : Step l e l') (hh : Holds l id k) :
    Holds l' id k ∨ (Ended l' id ∧ ∀ cardId, e ≠ .remove cardId) := by
  obtain ⟨r, hr, rfl, hactive, c, hc, hcid, rfl⟩ := hh
  have hkeep : e ≠ .remove r.cardId := by
    rintro rfl
    cases h with
    | remove _ hclosed => exact absurd (isOpen_of_isActive hactive) (by simp [hclosed r hr rfl])
  obtain ⟨r', hr', hev⟩ := h.run_forth hr hkeep
  -- a run that is active still is in the space its card had
  have hstill (hactive' : r'.isActive = true) : Holds l' r.id c.space := by
    obtain ⟨c', hc', hcid'⟩ := (h.inv hinv).owned r' hr'
    have hold : Holds l r.id c'.space :=
      Step.inSpace_back hinv h hr (isOpen_of_isActive hactive) hactive hc' (hcid'.trans hev.cardId)
    have hspace : c'.space = c.space := hold.unique ⟨r, hr, rfl, hactive, c, hc, hcid, rfl⟩
    exact ⟨r', hr', hev.key, hactive', c', hc', hcid', hspace⟩
  cases hev with
  | same => exact .inl (hstill hactive)
  | promote _ a hqueued => exact absurd hqueued (by simp_all [Run.isActive, Run.isQueued])
  | signal _ deadline paused _ => exact .inl (hstill hactive)
  | finish _ now outcome summary hopen =>
      exact .inr ⟨⟨_, hr', rfl, by simp [endedRun, Run.isOpen]⟩, by simp⟩
  | hop _ next now outcome summary hopen =>
      exact .inr ⟨⟨_, hr', rfl, by simp [endedRun, Run.isOpen]⟩, by simp⟩

theorem Step.waits_back (hinv : Inv l) (h : Step l e l') (hw : Waits l' id k) :
    Waits l id k ∨ id = l.runs.nextKey := by
  obtain ⟨r', hr', rfl, hqueued', c', hc', hcid, rfl⟩ := hw
  rcases h.run_back hr' with ⟨r, hr, hev⟩ | hins
  · cases hev with
    | same =>
        exact .inl (Step.inSpace_back hinv h hr (isOpen_of_isQueued hqueued') hqueued' hc' hcid)
    | promote _ a hqueued => exact absurd hqueued' (by simp [Life.Launch.start, Run.isQueued])
    | signal _ deadline paused hactive =>
        exact .inl (Step.inSpace_back hinv h hr (isOpen_of_isActive hactive) hqueued' hc' hcid)
    | finish _ now outcome summary hopen => exact absurd hqueued' (by simp [endedRun, Run.isQueued])
    | hop _ next now outcome summary hopen =>
        exact absurd hqueued' (by simp [endedRun, Run.isQueued])
  · cases hins <;> exact .inr rfl

/-! ## A step of the daemon -/

/-- Without promotions no further run starts. -/
theorem Via.holds_back (h : Via E db db') (hinv : Inv (life db.toTables))
    (hE : ∀ id a, ¬E (.promote id a))
    (hh : Holds (life db'.toTables) id k) : Holds (life db.toTables) id k := by
  refine (h.preserves (I := fun l => Inv l ∧ ∀ id k, Holds l id k →
    Holds (life db.toTables) id k) ?_ ⟨hinv, fun _ _ h => h⟩).2 id k hh
  rintro s e t ⟨hs, hall⟩ he hst
  refine ⟨Step.inv hst hs, fun id k hh => ?_⟩
  rcases Step.holds_back hs hst hh with hh | ⟨-, a, rfl⟩
  · exact hall id k hh
  · exact absurd he (hE id a)

/-- Deletions alone end no started run. -/
theorem Via.holds_deleting (h : Via E db db') (hinv : Inv (life db.toTables))
    (hE : ∀ e, E e → ∃ cardId, e = .remove cardId) (hh : Holds (life db.toTables) id k) :
    Holds (life db'.toTables) id k := by
  refine (h.preserves (I := fun l => Inv l ∧ Holds l id k) ?_ ⟨hinv, hh⟩).2
  rintro s e t ⟨hs, hh⟩ he hst
  obtain ⟨cardId, rfl⟩ := hE e he
  refine ⟨Step.inv hst hs, (Step.holds_forth hs hst hh).resolve_right ?_⟩
  rintro ⟨-, hne⟩
  exact hne cardId rfl

/-- Without deletions a started run stays started, or its row says that it has ended. -/
theorem Via.holds_or_ended (h : Via E db db') (hinv : Inv (life db.toTables))
    (hE : ∀ cardId, ¬E (.remove cardId))
    (hh : Holds (life db.toTables) id k) : Holds (life db'.toTables) id k ∨
    Ended (life db'.toTables) id := by
  refine (h.preserves (I := fun l => Inv l ∧ (Holds l id k ∨ Ended l id)) ?_ ⟨hinv, .inl hh⟩).2
  rintro s e t ⟨hs, hh | ⟨r, hr, hid, hend⟩⟩ he hst
  · exact ⟨Step.inv hst hs, (Step.holds_forth hs hst hh).imp_right And.left⟩
  · have hkept : r ∈ t.runs := Step.keeps_ended hst hr hend fun heq => hE _ (heq ▸ he)
    exact ⟨Step.inv hst hs, .inr ⟨r, hkept, hid, hend⟩⟩

/-- A run that is there, and stays there, waits only where it waited. -/
theorem Via.waits_back (h : Via E db db') (hinv : Inv (life db.toTables)) {r : Run}
    (hr : r ∈ db.runs)
    (hE : ¬E (.remove r.cardId)) : (∃ r' ∈ db'.runs, r'.id = r.id ∧ r'.cardId = r.cardId) ∧
      ∀ k, Waits (life db'.toTables) r.id k → Waits (life db.toTables) r.id k := by
  refine (h.preserves (I := fun l => Inv l ∧ (∃ r' ∈ l.runs, r'.id = r.id ∧ r'.cardId = r.cardId) ∧
    ∀ k, Waits l r.id k → Waits (life db.toTables) r.id k) ?_ ⟨hinv, ⟨r, hr, rfl, rfl⟩,
      fun _ h => h⟩).2
  rintro s e t ⟨hs, ⟨r', hr', hid, hcard⟩, hall⟩ he hst
  obtain ⟨r'', hr'', hev⟩ := Step.run_forth hst hr' fun heq => hE (hcard ▸ heq ▸ he)
  refine ⟨Step.inv hst hs, ⟨r'', hr'', hev.key.trans hid, hev.cardId.trans hcard⟩, fun k hw => ?_⟩
  rcases Step.waits_back hs hst hw with hw | hnew
  · exact hall k hw
  · have hlt : r'.id < s.runs.nextKey := Table.lt_nextKey hr'
    omega

/-- Without deletions a queued run was queued before, or has a new id. -/
theorem Via.waits_or_new (h : Via E db db') (hinv : Inv (life db.toTables))
    (hE : ∀ id, ¬E (.remove id)) :
    db.runs.nextKey ≤ db'.runs.nextKey ∧ ∀ id k, Waits (life db'.toTables) id k →
      Waits (life db.toTables) id k ∨ db.runs.nextKey ≤ id := by
  refine (h.preserves (I := fun l => Inv l ∧ db.runs.nextKey ≤ l.runs.nextKey ∧
    ∀ id k, Waits l id k →
    Waits (life db.toTables) id k ∨ db.runs.nextKey ≤ id) ?_
      ⟨hinv, le_refl _, fun _ _ h => .inl h⟩).2
  rintro s e t ⟨hs, hle, hall⟩ he hst
  have hmono := Step.nextKey_le hst fun id heq => hE id (heq ▸ he)
  refine ⟨Step.inv hst hs, hle.trans hmono, fun id k hw => ?_⟩
  rcases Step.waits_back hs hst hw with hw | rfl
  · exact hall id k hw
  · exact .inr hle

end HerdrBoard.Scheduling
