import HerdrBoard.Scheduling.Slots
import HerdrBoard.Lifecycle.Timeouts
import HerdrBoard.Lib.Admission
import Mathlib.Data.List.Perm.Subperm

/-!
# Claims of the dispatcher

How many runs are started or claimed, in which spaces, and in which order the dispatcher
claims them. -/

open Lib HerdrBoard.Core HerdrBoard.Daemon HerdrBoard.Lifecycle

namespace HerdrBoard.Scheduling

variable {cfg : Config} {env : Env} {w w' : World} {db : Db} {id : Int} {k : SpaceKey}

/-! ## The claim loop is an admission -/

/-- The space of a run read with its card. -/
def claimSpace (rc : Run × Card) : SpaceKey := SpaceKey.fromCard rc.2

theorem claimLoop_eq (max : Nat) (s : ClaimState) (queue : List (Run × Card)) :
    (claimLoop max s queue).claimed = s.claimed ++ takeFree claimSpace (max - s.activeCount)
      s.busy queue := by
  induction queue generalizing s with
  | nil => simp [claimLoop, takeFree]
  | cons rc queue ih =>
      obtain ⟨run, card⟩ := rc
      by_cases hfull : s.activeCount ≥ max
      · simp [claimLoop, hfull, Nat.sub_eq_zero_of_le hfull, takeFree_zero]
      · by_cases hbusy : SpaceKey.fromCard card ∈ s.busy
        · rw [takeFree_of_busy (show claimSpace (run, card) ∈ s.busy from hbusy), ← ih]
          simp [claimLoop, hfull, hbusy]
        · obtain ⟨room, hroom⟩ : ∃ room, max - s.activeCount = room + 1 :=
            Nat.exists_eq_add_of_lt (Nat.sub_pos_of_lt (Nat.lt_of_not_ge hfull)) |>.imp
              fun _ h => by omega
          rw [hroom, takeFree_of_free (show claimSpace (run, card) ∉ s.busy from hbusy)]
          have hrest : max - (s.activeCount + 1) = room := by omega
          simp only [claimLoop, hfull, hbusy, if_false, ih, hrest, List.append_assoc,
            List.singleton_append]
          rfl

/-- The most runs at a time. -/
def capacity (cfg : Config) : Nat := max cfg.maxConcurrent 1

theorem claimed_eq (active queued : List (Run × Card)) :
    (claimLoop (capacity cfg) (claimStart active) queued).claimed =
      takeFree claimSpace (capacity cfg - active.length) (active.map claimSpace) queued := by
  rw [claimLoop_eq]
  rfl

/-! ## Runs read with their cards -/

theorem mem_withCards {runs : List Run} {rc : Run × Card} :
    rc ∈ db.withCards runs ↔ rc.1 ∈ runs ∧ db.card? rc.1.cardId = some rc.2 := by
  obtain ⟨r, c⟩ := rc
  simp only [Db.withCards, List.mem_filterMap, Option.map_eq_some_iff, Prod.mk.injEq]
  constructor
  · rintro ⟨r, hr, c, hc, rfl, rfl⟩
    exact ⟨hr, hc⟩
  · rintro ⟨hr, hc⟩
    exact ⟨r, hr, c, hc, rfl, rfl⟩

theorem withCards_sublist (db : Db) (runs : List Run) :
    ((db.withCards runs).map Prod.fst).Sublist runs := by
  induction runs with
  | nil => exact .slnil
  | cons r runs ih =>
      cases hcard : db.card? r.cardId with
      | none => simpa [Db.withCards, hcard] using ih.cons r
      | some c => simpa [Db.withCards, hcard] using ih.cons_cons r

/-- The runs come in ascending id. -/
theorem withCards_ascending (p : Run → Bool) :
    (db.withCards (db.runs.select p)).Pairwise fun a b => a.1.id < b.1.id := by
  have hrows : (db.runs.select p).Pairwise fun a b => a.id < b.id :=
    List.Pairwise.sublist List.filter_sublist db.runs.ascending
  have hfst := hrows.sublist (withCards_sublist db (db.runs.select p))
  exact (List.pairwise_map (R := fun a b : Run => a.id < b.id)).mp hfst

theorem withCards_nodup (p : Run → Bool) :
    ((db.withCards (db.runs.select p)).map fun rc => rc.1.id).Nodup :=
  List.pairwise_map.mpr ((withCards_ascending p).imp fun h => h.ne)

theorem mem_queuedRunsWithCards {rc : Run × Card} : rc ∈ db.queuedRunsWithCards ↔
    rc.1 ∈ db.runs ∧ rc.1.isQueued = true ∧ db.card? rc.1.cardId = some rc.2 := by
  simp [Db.queuedRunsWithCards, mem_withCards, and_assoc]

theorem mem_activeRunsWithCards {rc : Run × Card} : rc ∈ db.activeRunsWithCards ↔
    rc.1 ∈ db.runs ∧ rc.1.isActive = true ∧ db.card? rc.1.cardId = some rc.2 := by
  simp [Db.activeRunsWithCards, mem_withCards, and_assoc]

theorem waits_of_queued {rc : Run × Card} (h : rc ∈ db.queuedRunsWithCards) :
    Waits (life db.toTables) rc.1.id (claimSpace rc) := by
  obtain ⟨hr, hp, hc⟩ := mem_queuedRunsWithCards.mp h
  exact inSpace_life.mpr ⟨rc.1, hr, rfl, hp, rc.2, hc, rfl⟩

theorem queued_of_waits (h : Waits (life db.toTables) id k) :
    ∃ rc ∈ db.queuedRunsWithCards, rc.1.id = id ∧ claimSpace rc = k := by
  obtain ⟨r, hr, hid, hp, c, hc, hk⟩ := inSpace_life.mp h
  exact ⟨(r, c), mem_queuedRunsWithCards.mpr ⟨hr, hp, hc⟩, hid, hk⟩

theorem active_iff_holds :
    Holds (life db.toTables) id k ↔
      ∃ rc ∈ db.activeRunsWithCards, rc.1.id = id ∧ claimSpace rc = k := by
  constructor
  · intro h
    obtain ⟨r, hr, hid, hp, c, hc, hk⟩ := inSpace_life.mp h
    exact ⟨(r, c), mem_activeRunsWithCards.mpr ⟨hr, hp, hc⟩, hid, hk⟩
  · rintro ⟨rc, hrc, hid, hk⟩
    obtain ⟨hr, hp, hc⟩ := mem_activeRunsWithCards.mp hrc
    exact inSpace_life.mpr ⟨rc.1, hr, hid, hp, rc.2, hc, hk⟩

/-! ## Started and claimed runs -/

/-- A started run, or a claimed one that is still queued. -/
def Occupies (w : World) (id : Int) (k : SpaceKey) : Prop :=
  Holds (life w.daemon.db.toTables) id k ∨
    (Waits (life w.daemon.db.toTables) id k ∧ ∃ c ∈ w.launching, c.1.id = id)

/-- What holds of a run since it was claimed. -/
structure ClaimOk (l : Life) (c : Run × Card) : Prop where
  row : ∃ r ∈ l.runs, r.id = c.1.id ∧ r.cardId = c.1.cardId
  waits : ∀ k, Waits l c.1.id k → k = claimSpace c
  unstarted : ∀ k, ¬Holds l c.1.id k

/-- What a pass has read: the started runs, of which some may have ended since. -/
structure PassOk (cfg : Config) (w : World) (active : List (Run × Card)) : Prop where
  idle : w.launching = []
  room : active.length ≤ capacity cfg
  nodup : (active.map fun rc => rc.1.id).Nodup
  covers : ∀ id k, Holds (life w.daemon.db.toTables) id k →
    ∃ rc ∈ active, rc.1.id = id ∧ claimSpace rc = k

structure Admitted (cfg : Config) (w : World) : Prop where
  inv : Inv (life w.daemon.db.toTables)
  nodup : (w.launching.map fun c => c.1.id).Nodup
  claims : ∀ c ∈ w.launching, ClaimOk (life w.daemon.db.toTables) c
  pass : ∀ active, w.pass = some active → PassOk cfg w active
  room : ∃ ids : List Int, ids.length ≤ capacity cfg ∧ ∀ id k, Occupies w id k → id ∈ ids
  distinct : ∀ id id' k, Occupies w id k → Occupies w id' k → id = id'

/-- A step that deletes no card with a claimed run. -/
def KeepsClaimed (w : World) (l : Label) : Prop :=
  ∀ c ∈ w.launching, ∀ env, l ≠ .request env (.cardDelete c.1.cardId)

theorem KeepsClaimed.not_remove {l : Label} (h : KeepsClaimed w l) {c : Run × Card}
    (hc : c ∈ w.launching) : ¬StepCauses cfg db l (.remove c.1.cardId) := by
  intro hcauses
  cases hcauses with
  | request env r _ h' =>
      cases h'
      exact h c hc env rfl
  | watch env x _ h' => cases h'

/-- A step that starts no run, in which a claim ends at most. -/
theorem Admitted.shrink (h : Admitted cfg w) {E : Event → Prop}
    (hvia : Via E w.daemon.db w'.daemon.db)
    (hpromote : ∀ id a, ¬E (.promote id a)) (hlaunching : w'.launching.Sublist w.launching)
    (hkeep : ∀ c ∈ w'.launching, ¬E (.remove c.1.cardId))
    (hpass : w'.pass = none ∨ w'.pass = w.pass) : Admitted cfg w' := by
  have hholds {id : Int} {k : SpaceKey} (hh : Holds (life w'.daemon.db.toTables) id k) :
      Holds (life w.daemon.db.toTables) id k := Via.holds_back hvia h.inv hpromote hh
  have hclaim : ∀ c ∈ w'.launching, ClaimOk (life w'.daemon.db.toTables) c ∧
      ∀ k, Waits (life w'.daemon.db.toTables) c.1.id k →
        Waits (life w.daemon.db.toTables) c.1.id k := by
    intro c hc
    have hok := h.claims c (hlaunching.subset hc)
    obtain ⟨r, hr, hid, hcard⟩ := hok.row
    obtain ⟨⟨r', hr', hid', hcard'⟩, hwaits⟩ :=
      Via.waits_back hvia h.inv hr (by rw [hcard]; exact hkeep c hc)
    rw [hid] at hwaits
    exact ⟨⟨⟨r', hr', hid'.trans hid, hcard'.trans hcard⟩, fun k hk => hok.waits k (hwaits k hk),
      fun k hk => hok.unstarted k (hholds hk)⟩, hwaits⟩
  have hocc : ∀ id k, Occupies w' id k → Occupies w id k := by
    rintro id k (hh | ⟨hw, c, hc, rfl⟩)
    · exact .inl (hholds hh)
    · exact .inr ⟨(hclaim c hc).2 k hw, c, hlaunching.subset hc, rfl⟩
  obtain ⟨ids, hlen, hids⟩ := h.room
  exact
    { inv := hvia.inv h.inv
      nodup := h.nodup.sublist (hlaunching.map _)
      claims := fun c hc => (hclaim c hc).1
      pass := fun active hactive => by
        have hw : w.pass = some active := by
          rcases hpass with hnone | hsame
          · simp [hnone] at hactive
          · rwa [← hsame]
        have hok := h.pass active hw
        exact ⟨List.sublist_nil.mp (hok.idle ▸ hlaunching), hok.room, hok.nodup,
          fun id k hh => hok.covers id k (hholds hh)⟩
      room := ⟨ids, hlen, fun id k ho => hids id k (hocc id k ho)⟩
      distinct := fun id id' k ho ho' => h.distinct id id' k (hocc id k ho) (hocc id' k ho') }

theorem not_promote {l : Label}
    (hl : ∀ env claimed column handle, l ≠ .dispatch env (.registered claimed column handle))
    (id : Int) (a : Life.Launch) : ¬StepCauses cfg db l (.promote id a) := by
  intro h
  cases h with
  | request env r _ h => cases h
  | watch env x _ h => cases h
  | registered env claimed column handle => exact hl env claimed column handle rfl

/-- A pass reads the started runs when nothing is claimed. -/
theorem Admitted.readActive (h : Admitted cfg w) (env : Env) :
    Admitted cfg (serveDispatch cfg env w .readActive) := by
  simp only [serveDispatch]
  split
  · next hidle =>
      obtain ⟨ids, hlen, hids⟩ := h.room
      have hnodup : (w.daemon.db.activeRunsWithCards.map fun rc => rc.1.id).Nodup :=
        withCards_nodup _
      have hsub : (w.daemon.db.activeRunsWithCards.map fun rc => rc.1.id) ⊆ ids := by
        intro id hid
        obtain ⟨rc, hrc, rfl⟩ := List.mem_map.mp hid
        exact hids _ _ (.inl (active_iff_holds.mpr ⟨rc, hrc, rfl, rfl⟩))
      have hle := (List.subperm_of_subset hnodup hsub).length_le
      rw [List.length_map] at hle
      refine { h with pass := ?_ }
      rintro active ⟨⟩
      exact ⟨hidle.2, hle.trans hlen, hnodup, fun id k hh => active_iff_holds.mp hh⟩
  · exact h

/-- The runs a claim takes, given what its pass has read. -/
def claimed (cfg : Config) (db : Db) (active : List (Run × Card)) : List (Run × Card) :=
  takeFree claimSpace (capacity cfg - active.length) (active.map claimSpace) db.queuedRunsWithCards

theorem serve_claim {active : List (Run × Card)} (hpass : w.pass = some active) :
    serveDispatch cfg env w .claim =
      { w with pass := none, launching := claimed cfg w.daemon.db active } := by
  simp only [serveDispatch, hpass]
  exact congrArg (fun claims => { w with pass := none, launching := claims }) (claimed_eq active _)

theorem claimed_subset {active : List (Run × Card)} {c : Run × Card}
    (hc : c ∈ claimed cfg db active) :
    c ∈ db.queuedRunsWithCards := (takeFree_sublist _ _ _).subset hc

/-- A claim admits queued runs into the spaces and the room that are left. -/
theorem Admitted.claim (h : Admitted cfg w) (env : Env) :
    Admitted cfg (serveDispatch cfg env w .claim) := by
  cases hpass : w.pass with
  | none =>
      simp only [serveDispatch, hpass]
      exact h
  | some active =>
      have hok := h.pass active hpass
      rw [serve_claim hpass]
      have hfree : ∀ c ∈ claimed cfg w.daemon.db active, ∀ id,
          ¬Holds (life w.daemon.db.toTables) id (claimSpace c) := by
        intro c hc id hh
        obtain ⟨rc, hrc, -, hkey⟩ := hok.covers _ _ hh
        exact key_takeFree hc (List.mem_map.mpr ⟨rc, hrc, hkey⟩)
      have hwaiting {id : Int} {k : SpaceKey} (hw : Waits (life w.daemon.db.toTables) id k)
          (hin : ∃ c ∈ claimed cfg w.daemon.db active, c.1.id = id) :
          ∃ c ∈ claimed cfg w.daemon.db active, c.1.id = id ∧ claimSpace c = k := by
        obtain ⟨c, hc, rfl⟩ := hin
        exact ⟨c, hc, rfl, (waits_of_queued (claimed_subset hc)).unique hw⟩
      refine
        { inv := h.inv
          nodup := (withCards_nodup Run.isQueued).sublist ((takeFree_sublist _ _ _).map _)
          claims := fun c hc => ?_
          pass := fun _ hnone => by simp at hnone
          room := ⟨active.map (fun rc => rc.1.id) ++ (claimed cfg w.daemon.db active).map fun c =>
            c.1.id, ?_, ?_⟩
          distinct := ?_ }
      · have hw := waits_of_queued (claimed_subset hc)
        obtain ⟨hr, -, -⟩ := mem_queuedRunsWithCards.mp (claimed_subset hc)
        exact ⟨⟨c.1, hr, rfl, rfl⟩, fun k hk => hk.unique hw, fun k => not_holds_of_waits hw⟩
      · have hlen : (claimed cfg w.daemon.db active).length ≤ capacity cfg - active.length :=
          length_takeFree_le _ _ _
        have hroom := hok.room
        simp only [List.length_append, List.length_map]
        omega
      · rintro id k (hh | ⟨-, c, hc, rfl⟩)
        · obtain ⟨rc, hrc, rfl, -⟩ := hok.covers id k hh
          exact List.mem_append_left _ (List.mem_map.mpr ⟨rc, hrc, rfl⟩)
        · exact List.mem_append_right _ (List.mem_map.mpr ⟨c, hc, rfl⟩)
      · rintro id id' k (hh | ⟨hw, hin⟩) (hh' | ⟨hw', hin'⟩)
        · exact h.distinct id id' k (.inl hh) (.inl hh')
        · obtain ⟨c, hc, -, rfl⟩ := hwaiting hw' hin'
          exact absurd hh (hfree c hc id)
        · obtain ⟨c, hc, -, rfl⟩ := hwaiting hw hin
          exact absurd hh' (hfree c hc id')
        · obtain ⟨c, hc, hid, hk⟩ := hwaiting hw hin
          obtain ⟨c', hc', hid', hk'⟩ := hwaiting hw' hin'
          have hcc := List.inj_on_of_nodup_map (nodup_keys_takeFree _ _ _) hc hc'
            (hk.trans hk'.symm)
          rw [← hid, ← hid', hcc]

theorem Admitted.promoted (h : Admitted cfg w) {c : Run × Card} (hc : c ∈ w.launching)
    {handle : RuntimeHandle} {started : Instant} {deadline : Option Instant}
    {deadlineAtMs : Option Int} {run : Run} {d' : DaemonState}
    (hreg : Registers env c.1.id handle started deadline deadlineAtMs run w.daemon d') :
    Admitted cfg { w with daemon := d', launching := w.launching.erase c } := by
  have hid : run.id = c.1.id := Table.key_of_find? hreg.found
  have hstep : Step (life w.daemon.db.toTables)
      (.promote run.id (launchOfHandle env handle deadlineAtMs))
      (life d'.db.toTables) :=
    hreg.promoted ▸ .promote run _ (Table.mem_of_find? hreg.found) hreg.isQueued
  have hother : ∀ c' ∈ w.launching.erase c, c'.1.id ≠ c.1.id := by
    intro c' hc' heq
    have hcc : c' = c := List.inj_on_of_nodup_map h.nodup (List.mem_of_mem_erase hc') hc heq
    exact (List.Nodup.of_map _ h.nodup).not_mem_erase (hcc ▸ hc')
  have hholds : ∀ id k, Holds (life d'.db.toTables) id k →
      Holds (life w.daemon.db.toTables) id k ∨
      (Waits (life w.daemon.db.toTables) id k ∧ id = c.1.id) := by
    intro id k hh
    refine (Step.holds_back h.inv hstep hh).imp_right fun ⟨hw, a, he⟩ => ⟨hw, ?_⟩
    cases he
    exact hid
  have hclaim : ∀ c' ∈ w.launching.erase c, ClaimOk (life d'.db.toTables) c' ∧
      ∀ k, Waits (life d'.db.toTables) c'.1.id k → Waits (life w.daemon.db.toTables) c'.1.id k := by
    intro c' hc'
    have hok := h.claims c' (List.mem_of_mem_erase hc')
    obtain ⟨r, hr, hrid, hcard⟩ := hok.row
    have hwaits : ∀ k, Waits (life d'.db.toTables) c'.1.id k →
        Waits (life w.daemon.db.toTables) c'.1.id k := by
      intro k hw
      rcases Step.waits_back h.inv hstep hw with hw | hnew
      · exact hw
      · have hlt : r.id < (life w.daemon.db.toTables).runs.nextKey := Table.lt_nextKey hr
        omega
    obtain ⟨r', hr', hev⟩ := hstep.run_forth hr (by simp)
    refine ⟨⟨⟨r', hr', hev.key.trans hrid, hev.cardId.trans hcard⟩,
      fun k hk => hok.waits k (hwaits k hk), ?_⟩, hwaits⟩
    intro k hk
    rcases hholds _ k hk with hk | ⟨-, heq⟩
    · exact hok.unstarted k hk
    · exact hother c' hc' heq
  have hocc : ∀ id k, Occupies { w with daemon := d', launching := w.launching.erase c } id k →
      Occupies w id k := by
    rintro id k (hh | ⟨hw, c', hc', rfl⟩)
    · rcases hholds id k hh with hh | ⟨hw, rfl⟩
      · exact .inl hh
      · exact .inr ⟨hw, c, hc, rfl⟩
    · exact .inr ⟨(hclaim c' hc').2 k hw, c', List.mem_of_mem_erase hc', rfl⟩
  obtain ⟨ids, hlen, hids⟩ := h.room
  exact
    { inv := hstep.inv h.inv
      nodup := h.nodup.sublist (List.erase_sublist.map _)
      claims := fun c' hc' => (hclaim c' hc').1
      pass := fun active hactive => by
        rw [(h.pass active hactive).idle] at hc
        cases hc
      room := ⟨ids, hlen, fun id k ho => hids id k (hocc id k ho)⟩
      distinct := fun id id' k ho ho' => h.distinct id id' k (hocc id k ho) (hocc id' k ho') }

/-- A registration starts a claimed run, or none. -/
theorem Admitted.registered (h : Admitted cfg w) (env : Env) (c : Run × Card) (column : Column)
    (handle : RuntimeHandle) :
    Admitted cfg (serveDispatch cfg env w (.registered c column handle)) := by
  simp only [serveDispatch]
  split
  · next hc =>
      rcases registerSpawnedRun_cases env c.1.id handle env.instant
          (startDeadlines cfg env column).1
        (startDeadlines cfg env column).2 w.daemon with hkill | ⟨run, hreg⟩
      · rw [hkill]
        exact h.shrink (E := fun _ => False) (refl_of (Via _) _) (fun _ _ => id) List.erase_sublist
          (fun _ _ => id) (.inr rfl)
      · exact h.promoted hc hreg
  · exact h

/-! ## Every step -/

theorem adopt_claims (env : Env) (w : World) (x : Adopt) :
    (serveAdopt env w x).launching = w.launching ∧ (serveAdopt env w x).pass = w.pass := by
  cases x with
  | observe a =>
      simp only [serveAdopt]
      cases sameOpenRun w.daemon.db a.run a.cardId <;> exact ⟨rfl, rfl⟩
  | insert a =>
      simp only [serveAdopt]
      split <;> exact ⟨rfl, rfl⟩

theorem failed_claims (cfg : Config) (env : Env) (w : World) (c : Run × Card) (reason : String) :
    (serveDispatch cfg env w (.failed c reason)).launching.Sublist w.launching ∧
      (serveDispatch cfg env w (.failed c reason)).pass = w.pass := by
  simp only [serveDispatch]
  split
  · exact ⟨List.erase_sublist, rfl⟩
  · exact ⟨.refl _, rfl⟩

theorem Admitted.step (h : Admitted cfg w) {l : Label} (hok : KeepsClaimed w l) :
    Admitted cfg (w.next cfg l) := by
  have hvia := via_step_daemon cfg h.inv l
  cases l with
  | request env r =>
      exact h.shrink hvia (not_promote (by simp)) (.refl _)
        (fun c hc => hok.not_remove hc) (.inr rfl)
  | watch env x =>
      exact h.shrink hvia (not_promote (by simp)) (.refl _)
        (fun c hc => hok.not_remove hc) (.inr rfl)
  | dispatch env x =>
      cases x with
      | readActive => exact h.readActive env
      | claim => exact h.claim env
      | registered c column handle => exact h.registered env c column handle
      | failed c reason =>
          obtain ⟨hlaunching, hpass⟩ := failed_claims cfg env w c reason
          exact h.shrink hvia (not_promote (by simp)) hlaunching
            (fun c hc => hok.not_remove (hlaunching.subset hc)) (.inr hpass)
      | abandoned c =>
          exact h.shrink hvia (not_promote (by simp)) List.erase_sublist
            (fun c hc => hok.not_remove (List.mem_of_mem_erase hc)) (.inr rfl)
      | warned cardId body =>
          exact h.shrink hvia (not_promote (by simp)) (.refl _)
            (fun c hc => hok.not_remove hc) (.inr rfl)
  | adopt env x =>
      obtain ⟨hlaunching, hpass⟩ := adopt_claims env w x
      have hsub : (w.next cfg (.adopt env x)).launching.Sublist w.launching := hlaunching ▸ .refl _
      exact h.shrink hvia (not_promote (by simp)) hsub (fun c hc => hok.not_remove (hsub.subset hc))
        (.inr hpass)
  | restart =>
      exact h.shrink hvia (not_promote (by simp)) (List.nil_sublist _)
        (fun c hc => by cases hc) (.inl rfl)

theorem admitted_start : Admitted cfg (.start Db.fresh) where
  inv := inv_fresh
  nodup := List.nodup_nil
  claims c hc := by cases hc
  pass active hactive := by cases hactive
  room := by
    refine ⟨[], Nat.zero_le _, ?_⟩
    rintro id k (⟨r, hr, -⟩ | ⟨⟨r, hr, -⟩, -⟩) <;> cases hr
  distinct := by
    rintro id id' k (⟨r, hr, -⟩ | ⟨⟨r, hr, -⟩, -⟩) <;> cases hr

theorem admitted_of_reachable (h : (boardd cfg).ReachableBy KeepsClaimed w) : Admitted cfg w := by
  refine h.invariant ?_ ?_
  · rintro w rfl
    exact admitted_start
  · rintro w l _ hadmitted hok rfl
    exact hadmitted.step hok

/-! ## What a pass counts -/

/-- A step while the pass that has read `active` has not claimed yet. -/
def WhileReading (active : List (Run × Card)) (w : World) (_ : Label) : Prop := w.pass = some active

/-- On the way from `w₀` to `w` there is a state in which the run of the id has ended. -/
def EndedOnTheWay (cfg : Config) (active : List (Run × Card)) (w₀ w : World) (id : Int) : Prop :=
  ∃ v, (boardd cfg).Steps (WhileReading active) w₀ v ∧
    (boardd cfg).Steps (WhileReading active) v w ∧
    ∃ r ∈ v.daemon.db.runs, r.id = id ∧ r.isOpen = false

/-- The pass of `w` read its runs at `w₀`. -/
structure ReadAt (cfg : Config) (active : List (Run × Card)) (w₀ w : World) : Prop where
  reads : ∃ env, w₀.next cfg (.dispatch env .readActive) = { w₀ with pass := some active }
  counted : active = w₀.daemon.db.activeRunsWithCards
  steps : (boardd cfg).Steps (WhileReading active) { w₀ with pass := some active } w
  /-- Each run it read is started still, or has ended since. -/
  since : ∀ rc ∈ active,
    (∃ now ∈ w.daemon.db.activeRunsWithCards, now.1.id = rc.1.id ∧ claimSpace now = claimSpace rc) ∨
      EndedOnTheWay cfg active { w₀ with pass := some active } w rc.1.id

/-- A step that deletes no card. -/
def KeepsCards (_ : World) (l : Label) : Prop := ∀ env id, l ≠ .request env (.cardDelete id)

theorem KeepsCards.not_remove {l : Label} (h : KeepsCards w l) (id : Int) :
    ¬StepCauses cfg db l (.remove id) := by
  intro hcauses
  cases hcauses with
  | request env r _ h' =>
      cases h'
      exact h env id rfl
  | watch env x _ h' => cases h'

/-- No step ends a run and deletes its card. -/
theorem holds_next (hinv : Inv (life w.daemon.db.toTables)) (l : Label)
    (hh : Holds (life w.daemon.db.toTables) id k) :
    Holds (life (w.next cfg l).daemon.db.toTables) id k ∨
    Ended (life (w.next cfg l).daemon.db.toTables) id := by
  have hvia := via_step_daemon cfg hinv l
  by_cases hdelete : ∃ env cardId, l = .request env (.cardDelete cardId)
  · obtain ⟨env, cardId, rfl⟩ := hdelete
    refine .inl (Via.holds_deleting hvia hinv (fun e he => ?_) hh)
    cases stepCauses_request.mp he
    exact ⟨cardId, rfl⟩
  · have hkeeps : KeepsCards w l := fun env cardId hl => hdelete ⟨env, cardId, hl⟩
    exact Via.holds_or_ended hvia hinv hkeeps.not_remove hh

/-- A step leaves the read of a pass as it is, unless the pass ends or reads. -/
theorem pass_next (w : World) (l : Label) :
    (w.next cfg l).pass = w.pass ∨ (w.next cfg l).pass = none ∨
    ∃ env, l = .dispatch env .readActive ∧
      w.next cfg l = { w with pass := some w.daemon.db.activeRunsWithCards } := by
  cases l with
  | request env r => exact .inl rfl
  | watch env x => exact .inl rfl
  | adopt env x => exact .inl (adopt_claims env w x).2
  | restart => exact .inr (.inl rfl)
  | dispatch env x =>
      cases x with
      | readActive =>
          by_cases hidle : w.pass.isNone ∧ w.launching = []
          · exact .inr (.inr ⟨env, rfl, if_pos hidle⟩)
          · exact .inl (congrArg World.pass (if_neg hidle))
      | claim =>
          cases hpass : w.pass with
          | none => exact .inl (by simp [World.next, serveDispatch, hpass])
          | some active => exact .inr (.inl (by rw [World.next, serve_claim hpass]))
      | registered c column handle =>
          refine .inl ?_
          simp only [World.next, serveDispatch]
          split <;> rfl
      | failed c reason => exact .inl (failed_claims cfg env w c reason).2
      | abandoned c => exact .inl rfl
      | warned cardId body => exact .inl rfl

theorem ReadAt.step {active : List (Run × Card)} {w₀ : World} (h : ReadAt cfg active w₀ w)
    (hinv : Inv (life w.daemon.db.toTables)) (hpass : w.pass = some active) (l : Label) :
    ReadAt cfg active w₀ (w.next cfg l) := by
  have hlast : (boardd cfg).Steps (WhileReading active) w (w.next cfg l) := .single ⟨l, hpass, rfl⟩
  refine ⟨h.reads, h.counted, h.steps.trans hlast, fun rc hrc => ?_⟩
  rcases h.since rc hrc with ⟨now, hnow, hid, hspace⟩ | ⟨v, hto, hfrom, hended⟩
  · rcases holds_next hinv l (active_iff_holds.mpr ⟨now, hnow, rfl, rfl⟩) with hholds | hended
    · obtain ⟨now', hnow', hid', hspace'⟩ := active_iff_holds.mp hholds
      exact .inl ⟨now', hnow', hid'.trans hid, hspace'.trans hspace⟩
    · exact .inr ⟨_, h.steps.trans hlast, .refl, hid ▸ hended⟩
  · exact .inr ⟨v, hto, hfrom.trans hlast, hended⟩

/-- Every pass under way has read the runs that were started at some state before. -/
theorem read_of_reachable (h : (boardd cfg).ReachableBy KeepsClaimed w) {active : List (Run × Card)}
    (hpass : w.pass = some active) : ∃ w₀, (boardd cfg).ReachableBy KeepsClaimed w₀ ∧
      ReadAt cfg active w₀ w := by
  obtain ⟨s, hs, hsteps⟩ := h
  induction hsteps with
  | refl =>
      cases hs
      cases hpass
  | tail hsw hwv ih =>
      rename_i w v
      obtain ⟨l, hok, rfl⟩ := hwv
      have hreach : (boardd cfg).ReachableBy KeepsClaimed w := ⟨s, hs, hsw⟩
      rcases pass_next w l with hsame | hnone | ⟨env, rfl, hread⟩
      · have hw : w.pass = some active := hsame ▸ hpass
        obtain ⟨w₀, hw₀, hread⟩ := ih hw
        exact ⟨w₀, hw₀, hread.step (admitted_of_reachable hreach).inv hw l⟩
      · exact absurd (hnone.symm.trans hpass) (by simp)
      · rw [hread] at hpass ⊢
        cases hpass
        exact ⟨w, hreach, ⟨env, hread⟩, rfl, .refl, fun rc hrc => .inl ⟨rc, hrc, rfl, rfl⟩⟩

/-! ## Safety and fairness -/

/-- The started runs, and the queued ones that are claimed. -/
def occupying (w : World) : List Run :=
  w.daemon.db.runs.select fun r =>
    r.isOpen && (r.startedAt.isSome || w.launching.any fun c => c.1.id == r.id)

/-- The space of the run's card. -/
def spaceOf (db : Db) (r : Run) : Option SpaceKey := (db.card? r.cardId).map SpaceKey.fromCard

theorem occupies_of_mem {r : Run} (h : r ∈ occupying w) {k : SpaceKey}
    (hk : spaceOf w.daemon.db r = some k) : Occupies w r.id k := by
  obtain ⟨c, hc, hck⟩ := Option.map_eq_some_iff.mp hk
  obtain ⟨hr, hp⟩ := Table.mem_select.mp h
  simp only [Bool.and_eq_true, Bool.or_eq_true, List.any_eq_true, beq_iff_eq] at hp
  obtain ⟨hopen, hstate⟩ := hp
  cases hstarted : r.startedAt with
  | some now =>
      refine .inl (inSpace_life.mpr ⟨r, hr, rfl, ?_, c, hc, hck⟩)
      simp [Run.isActive, hstarted, isOpen_iff.mp hopen]
  | none =>
      refine .inr ⟨inSpace_life.mpr ⟨r, hr, rfl, ?_, c, hc, hck⟩, ?_⟩
      · simp [Run.isQueued, hstarted, isOpen_iff.mp hopen]
      · simpa [hstarted] using hstate

/-- Every open run has a card, so a space. -/
theorem Admitted.space (h : Admitted cfg w) {r : Run} (hr : r ∈ w.daemon.db.runs) :
    ∃ k, spaceOf w.daemon.db r = some k := by
  obtain ⟨c, hc, hcid⟩ := h.inv.owned r hr
  obtain ⟨c, hcard, rfl⟩ := mem_cardStates.mp hc
  exact ⟨_, Option.map_eq_some_iff.mpr ⟨c, Table.find?_eq_some.mpr ⟨hcard, hcid⟩, rfl⟩⟩

/-- Without deletions, a run that waits was waiting before, or is newer than every run of then. -/
theorem waits_since (hs : (boardd cfg).Steps KeepsCards w w')
    (hinv : Inv (life w.daemon.db.toTables)) : ∀ id k, Waits (life w'.daemon.db.toTables) id k →
      Waits (life w.daemon.db.toTables) id k ∨ w.daemon.db.runs.nextKey ≤ id := by
  refine (hs.preserves (I := fun w' => Inv (life w'.daemon.db.toTables) ∧
    w.daemon.db.runs.nextKey ≤ w'.daemon.db.runs.nextKey ∧
    ∀ id k, Waits (life w'.daemon.db.toTables) id k →
      Waits (life w.daemon.db.toTables) id k ∨ w.daemon.db.runs.nextKey ≤ id) ?_
    ⟨hinv, le_refl _, fun _ _ h => .inl h⟩).2.2
  rintro v l _ ⟨hv, hle, hall⟩ hok rfl
  have hvia := via_step_daemon cfg hv l
  obtain ⟨hmono, hback⟩ := Via.waits_or_new hvia hv hok.not_remove
  refine ⟨hvia.inv hv, hle.trans hmono, fun id k hw => ?_⟩
  rcases hback id k hw with hw | hnew
  · exact hall id k hw
  · exact .inr (hle.trans hnew)

theorem claimed_first {active : List (Run × Card)} {c rc : Run × Card}
    (hc : c ∈ claimed cfg db active)
    (hrc : rc ∈ db.queuedRunsWithCards) (hspace : claimSpace rc = claimSpace c) :
    c.1.id ≤ rc.1.id := by
  rcases takeFree_first (withCards_ascending Run.isQueued) hc hrc hspace with rfl | hlt
  · exact le_refl _
  · exact hlt.le

theorem claimed_maximal {active : List (Run × Card)} {rc : Run × Card}
    (hrc : rc ∈ db.queuedRunsWithCards) :
    capacity cfg ≤ active.length + (claimed cfg db active).length ∨
      ∃ busy ∈ active ++ claimed cfg db active, claimSpace busy = claimSpace rc := by
  have hmax : capacity cfg - active.length ≤ (claimed cfg db active).length ∨
      claimSpace rc ∈ active.map claimSpace ∨
      ∃ c ∈ claimed cfg db active, claimSpace c = claimSpace rc :=
    takeFree_maximal hrc
  rcases hmax with hroom | hbusy | ⟨c, hc, hkey⟩
  · exact .inl (by omega)
  · obtain ⟨busy, hbusy, hkey⟩ := List.mem_map.mp hbusy
    exact .inr ⟨busy, List.mem_append_left _ hbusy, hkey⟩
  · exact .inr ⟨c, List.mem_append_right _ hc, hkey⟩

theorem dispatch_safe_and_fair (h : (boardd cfg).ReachableBy KeepsClaimed w) :
    -- at most `max 1 max_concurrent` runs are started or claimed, no two of them in one space
    (occupying w).length ≤ max 1 cfg.maxConcurrent ∧
    (∀ r ∈ occupying w, ∀ s ∈ occupying w, spaceOf w.daemon.db r = spaceOf w.daemon.db s → r = s) ∧
    ∀ env active, w.pass = some active →
      -- a claim takes queued runs, of each space the one with the least id
      (∀ c ∈ (w.next cfg (.dispatch env .claim)).launching, c ∈ w.daemon.db.queuedRunsWithCards ∧
        ∀ rc ∈ w.daemon.db.queuedRunsWithCards, claimSpace rc = claimSpace c → c.1.id ≤ rc.1.id) ∧
      -- it leaves a run queued only when the capacity is full or its space busy
      (max 1 cfg.maxConcurrent ≤ active.length +
        (w.next cfg (.dispatch env .claim)).launching.length ∨
        ∀ rc ∈ w.daemon.db.queuedRunsWithCards,
          ∃ busy ∈ active ++ (w.next cfg (.dispatch env .claim)).launching,
            claimSpace busy = claimSpace rc) ∧
      -- it counted the runs that were started when the pass read them; those that are not started
      -- now have ended
      (∃ w₀, (boardd cfg).ReachableBy KeepsClaimed w₀ ∧ ReadAt cfg active w₀ w) ∧
      (∀ rc ∈ w.daemon.db.activeRunsWithCards, ∃ busy ∈ active, busy.1.id = rc.1.id ∧
        claimSpace busy = claimSpace rc) ∧
      -- later claims take later runs of a space
      ∀ w' env' active', (boardd cfg).Steps KeepsCards w w' → w'.pass = some active' →
        ∀ c ∈ (w.next cfg (.dispatch env .claim)).launching,
          ∀ c' ∈ (w'.next cfg (.dispatch env' .claim)).launching, claimSpace c' = claimSpace c →
            c.1.id ≤ c'.1.id := by
  have hadmitted := admitted_of_reachable h
  have hcap : capacity cfg = max 1 cfg.maxConcurrent := Nat.max_comm _ _
  rw [← hcap]
  refine ⟨?_, ?_, fun env active hpass => ?_⟩
  · obtain ⟨ids, hlen, hids⟩ := hadmitted.room
    have hnodup : ((occupying w).map Run.id).Nodup :=
      w.daemon.db.runs.nodup_keys.sublist (List.filter_sublist.map _)
    have hsub : (occupying w).map Run.id ⊆ ids := by
      intro id hid
      obtain ⟨r, hr, rfl⟩ := List.mem_map.mp hid
      obtain ⟨k, hk⟩ := hadmitted.space (Table.mem_select.mp hr).1
      exact hids _ k (occupies_of_mem hr hk)
    have hle := (List.subperm_of_subset hnodup hsub).length_le
    rw [List.length_map] at hle
    exact hle.trans hlen
  · intro r hr s hs hspace
    obtain ⟨k, hk⟩ := hadmitted.space (Table.mem_select.mp hr).1
    exact Table.eq_of_key_eq (Table.mem_select.mp hr).1 (Table.mem_select.mp hs).1
      (hadmitted.distinct _ _ k (occupies_of_mem hr hk) (occupies_of_mem hs (hspace ▸ hk)))
  · have hok := hadmitted.pass active hpass
    have hnext : (w.next cfg (.dispatch env .claim)).launching =
        claimed cfg w.daemon.db active := by
      show (serveDispatch cfg env w .claim).launching = _
      rw [serve_claim hpass]
    rw [hnext]
    refine ⟨fun c hc => ⟨claimed_subset hc, fun rc hrc => claimed_first hc hrc⟩, ?_,
      read_of_reachable h hpass, ?_, ?_⟩
    · by_cases hfull : capacity cfg ≤ active.length + (claimed cfg w.daemon.db active).length
      · exact .inl hfull
      · exact .inr fun rc hrc => (claimed_maximal hrc).resolve_left hfull
    · intro rc hrc
      exact hok.covers _ _ (active_iff_holds.mpr ⟨rc, hrc, rfl, rfl⟩)
    · intro w' env' active' hs hpass' c hc c' hc' hspace
      have hnext' : (w'.next cfg (.dispatch env' .claim)).launching = claimed cfg w'.daemon.db
          active' := by
        show (serveDispatch cfg env' w' .claim).launching = _
        rw [serve_claim hpass']
      rw [hnext'] at hc'
      rcases waits_since hs hadmitted.inv _ _ (waits_of_queued (claimed_subset hc')) with hw | hnew
      · obtain ⟨rc, hrc, hid, hkey⟩ := queued_of_waits hw
        exact hid ▸ claimed_first hc hrc (hkey.trans hspace)
      · obtain ⟨hr, -⟩ := mem_queuedRunsWithCards.mp (claimed_subset hc)
        exact (Table.lt_nextKey hr).le.trans hnew

/-- Two runs at a time. -/
def twoAtATime : Config := { oneAtATime with maxConcurrent := 2 }

/-- Three cards are queued, two of them in one space, and a pass has read that no run is started. -/
def threeQueued : World :=
  (World.start Db.fresh).run twoAtATime
    [ .request permissiveEnv (.columnCreate { name := "Run", trigger := some .auto }),
      .request permissiveEnv
        (.cardCreate { title := "A", spaceRef := some "w1", columnId := some 2 }),
      .request permissiveEnv
        (.cardCreate { title := "B", spaceRef := some "w1", columnId := some 2 }),
      .request permissiveEnv
        (.cardCreate { title := "C", spaceRef := some "w2", columnId := some 2 }),
      .dispatch permissiveEnv .readActive ]

theorem reachable_threeQueued : (boardd twoAtATime).ReachableBy KeepsClaimed threeQueued := by
  refine reachableBy_run (System.ReachableBy.init rfl) _ fun l hl w c _ env hdel => ?_
  subst hdel
  simp at hl

theorem dispatch_safe_and_fair_three :
    (threeQueued.next twoAtATime (.dispatch permissiveEnv .claim)).launching.map
      (fun c => c.1.id) = [1, 3] ∧ (occupying threeQueued).length ≤ 2 ∧
      (∀ c ∈ (threeQueued.next twoAtATime (.dispatch permissiveEnv .claim)).launching,
        ∀ rc ∈ threeQueued.daemon.db.queuedRunsWithCards, claimSpace rc = claimSpace c →
          c.1.id ≤ rc.1.id) ∧
      ∃ active w₀, threeQueued.pass = some active ∧ ReadAt twoAtATime active w₀ threeQueued := by
  obtain ⟨hroom, -, hpass⟩ := dispatch_safe_and_fair reachable_threeQueued
  have hread : threeQueued.pass.isSome := by decide
  obtain ⟨active, hactive⟩ := Option.isSome_iff_exists.mp hread
  obtain ⟨hfirst, -, ⟨w₀, -, hcounted⟩, -⟩ := hpass permissiveEnv active hactive
  exact ⟨by decide, hroom, fun c hc rc => (hfirst c hc).2 rc, active, w₀, hactive, hcounted⟩

/-- Two cards are queued, in two spaces. -/
def twoQueued : World :=
  (World.start Db.fresh).run oneAtATime
    [ .request permissiveEnv (.columnCreate { name := "Run", trigger := some .auto }),
      .request permissiveEnv
        (.cardCreate { title := "A", spaceRef := some "w1", columnId := some 2 }),
      .request permissiveEnv
        (.cardCreate { title := "B", spaceRef := some "w2", columnId := some 2 }) ]

/-- The first run is started; a pass has read it, and it has ended before the pass claims. -/
def countedRunEnded : World :=
  (launchQueued oneAtATime permissiveEnv plainHandle twoQueued).run oneAtATime
    [.dispatch permissiveEnv .readActive,
      .watch permissiveEnv (.finalizeRun 1 .ok none none false false)]

theorem reachable_countedRunEnded :
    (boardd oneAtATime).ReachableBy KeepsClaimed countedRunEnded := by
  have hqueued : (boardd oneAtATime).ReachableBy KeepsClaimed twoQueued := by
    refine reachableBy_run (System.ReachableBy.init rfl) _ fun l hl w c _ env hdel => ?_
    subst hdel
    simp at hl
  have hstarted : (boardd oneAtATime).ReachableBy KeepsClaimed
      (launchQueued oneAtATime permissiveEnv plainHandle twoQueued) := by
    refine reachableBy_run hqueued _ fun l hl w c _ env hdel => ?_
    obtain ⟨x, rfl⟩ := mem_launchLabels hl
    cases hdel
  refine reachableBy_run hstarted _ fun l hl w c _ env hdel => ?_
  subst hdel
  simp at hl

/-- A pass counts a run that has ended since it read: it leaves a queued run with the capacity and
its space free. -/
theorem claim_leaves_runnable :
    ∃ w, (boardd oneAtATime).ReachableBy KeepsClaimed w ∧ w.pass.isSome ∧
    (occupying (w.next oneAtATime (.dispatch permissiveEnv .claim))).length <
      max 1 oneAtATime.maxConcurrent ∧
    ∃ rc ∈ (w.next oneAtATime (.dispatch permissiveEnv .claim)).daemon.db.queuedRunsWithCards,
      ∀ r ∈ occupying (w.next oneAtATime (.dispatch permissiveEnv .claim)),
        spaceOf w.daemon.db r ≠ some (claimSpace rc) := by
  have hnone : occupying (countedRunEnded.next oneAtATime (.dispatch permissiveEnv .claim)) =
      [] := by decide +kernel
  have hqueued : (countedRunEnded.next oneAtATime
      (.dispatch permissiveEnv .claim)).daemon.db.queuedRunsWithCards.map
      (fun rc => rc.1.id) = [2] := by decide +kernel
  obtain ⟨rc, hlist, -⟩ := List.map_eq_singleton_iff.mp hqueued
  refine ⟨countedRunEnded, reachable_countedRunEnded, by decide +kernel, ?_,
    rc, by rw [hlist]; simp, ?_⟩
  · rw [hnone]
    decide
  · rw [hnone]
    simp

end HerdrBoard.Scheduling
