import HerdrBoard.Lib.Table
import Mathlib.Data.List.Sort
import Mathlib.Data.List.InsertIdx
import Mathlib.Data.List.Perm.Basic
import Mathlib.Data.List.Nodup

/-!
# Rows arranged in groups by position

Each row belongs to a group and has a position in it. An arrangement says which keys a group holds
and in which order; a table is arranged when the positions of each group are exactly `0, …, n-1`
in that order. -/

namespace Lib

/-- Rows that have a position inside a group. -/
class Placed (ρ : Type) extends Keyed ρ where
  group : ρ → Int
  position : ρ → Int
  setPosition : Int → ρ → ρ
  key_setPosition : ∀ i r, Keyed.key (setPosition i r) = Keyed.key r
  group_setPosition : ∀ i r, group (setPosition i r) = group r
  position_setPosition : ∀ i r, position (setPosition i r) = i

open Keyed Placed

attribute [simp] Placed.key_setPosition Placed.group_setPosition Placed.position_setPosition

variable {ρ : Type} [Placed ρ]

/-- `ORDER BY position, id`. -/
def Before (a b : ρ) : Prop := position a < position b ∨ position a = position b ∧ key a ≤ key b

instance : DecidableRel (Before : ρ → ρ → Prop) := fun _ _ => inferInstanceAs (Decidable (_ ∨ _))

instance : IsTrans ρ Before where
  trans a b c hab hbc := by
    unfold Before at *
    omega

instance : Std.Total (Before : ρ → ρ → Prop) where
  total a b := by
    unfold Before
    omega

namespace Table

/-- `SELECT … WHERE p ORDER BY position, id`. -/
def ordered (t : Table ρ) (p : ρ → Bool) : List ρ := (t.select p).insertionSort Before

/-- The keys of a group, in order. -/
def slots (t : Table ρ) (g : Int) : List Int := (t.ordered fun r => group r == g).map key

/-- The keys of a group other than `x`, in order. -/
def others (t : Table ρ) (g x : Int) : List Int :=
  (t.ordered fun r => group r == g && key r != x).map key

/-- `COALESCE(MAX(position)+1, 0)` over a group. -/
def endPosition (t : Table ρ) (g : Int) : Int :=
  match ((t.select fun r => group r == g).map position).max? with
  | some m => m + 1
  | none => 0

/-- Where every row stands: its key, its group and its position. -/
def places (t : Table ρ) : List (Int × Int × Int) :=
  t.rows.map fun r => (key r, group r, position r)

/-- Give the keys of the list the positions `n, n+1, …`, one update a key. -/
def renumberFrom (t : Table ρ) (n : Nat) : List Int → Table ρ
  | [] => t
  | k :: ks => renumberFrom (t.update (key · == k) (setPosition n) (key_setPosition _)) (n + 1) ks

/-- Give the keys of the list the positions `0, 1, …`. -/
def renumber (t : Table ρ) (ids : List Int) : Table ρ := t.renumberFrom 0 ids

theorem mem_ordered {t : Table ρ} {p : ρ → Bool} {r : ρ} :
    r ∈ t.ordered p ↔ r ∈ t ∧ p r = true := by
  simp [ordered]

theorem mem_slots {t : Table ρ} {g k : Int} : k ∈ t.slots g ↔ ∃ r ∈ t, group r = g ∧ key r = k := by
  simp [slots, mem_ordered, and_assoc]

/-! ## Queries of tables that hold the same rows -/

theorem select_congr {t t' : Table ρ} {p p' : ρ → Bool} (h : ∀ r, (r ∈ t' ∧ p' r = true) ↔
    (r ∈ t ∧ p r = true)) : t'.select p' = t.select p := by
  have hascending (t : Table ρ) (p : ρ → Bool) : (t.select p).Pairwise fun a b => key a < key b :=
    t.ascending.sublist List.filter_sublist
  have hnodup (t : Table ρ) (p : ρ → Bool) : (t.select p).Nodup :=
    (hascending t p).imp fun hab heq => by simp [heq] at hab
  refine List.Perm.eq_of_pairwise ?_ (hascending t' p') (hascending t p) ?_
  · intro a b _ _ hab hba
    omega
  · refine (List.perm_ext_iff_of_nodup (hnodup t' p') (hnodup t p)).mpr fun r => ?_
    rw [select, select, List.mem_filter, List.mem_filter]
    exact h r

/-- Ordering commutes with dropping rows. -/
theorem filter_ordered {t : Table ρ} {p q : ρ → Bool} :
    (t.ordered p).filter q = t.ordered fun r => p r && q r := by
  have hsorted (p : ρ → Bool) : (t.ordered p).Pairwise Before := List.pairwise_insertionSort _ _
  refine List.Perm.eq_of_pairwise ?_ ((hsorted p).sublist List.filter_sublist) (hsorted _) ?_
  · intro a b ha hb hab hba
    have hkey : key a = key b := by
      unfold Before at hab hba
      omega
    exact eq_of_key_eq (mem_ordered.mp (List.mem_of_mem_filter ha)).1 (mem_ordered.mp hb).1 hkey
  · have hperm : ((t.ordered p).filter q).Perm ((t.select p).filter q) :=
      (List.perm_insertionSort _ _).filter q
    have hselect : (t.select p).filter q = t.select fun r => p r && q r := by
      simp only [select, List.filter_filter, Bool.and_comm]
    exact hperm.trans (hselect ▸ (List.perm_insertionSort _ _).symm)

theorem others_eq_filter {t : Table ρ} {g x : Int} :
    t.others g x = (t.slots g).filter (· != x) := by
  rw [others, slots, ← filter_ordered, List.filter_map]
  rfl

theorem nodup_slots {t : Table ρ} {g : Int} : (t.slots g).Nodup := by
  have hperm : (t.slots g).Perm ((t.select fun r => group r == g).map key) :=
    (List.perm_insertionSort _ _).map key
  exact hperm.nodup_iff.mpr (t.nodup_keys.sublist (List.filter_sublist.map key))

theorem slots_delete {t : Table ρ} {g x : Int} :
    (t.delete fun r => key r == x).slots g = (t.slots g).filter (· != x) := by
  rw [← others_eq_filter, slots, others, ordered, ordered]
  congr 2
  refine select_congr fun r => ?_
  simp only [mem_delete, Bool.and_eq_true, beq_eq_false_iff_ne, bne_iff_ne]
  tauto

/-- A rewrite that leaves every row in its place. -/
theorem slots_update {t : Table ρ} {p : ρ → Bool} {f : ρ → ρ} {hkey} {g : Int}
    (hgroup : ∀ r, group (f r) = group r)
    (hposition : ∀ r, position (f r) = position r) : (t.update p f hkey).slots g = t.slots g := by
  let f' : ρ → ρ := fun r => if p r then f r else r
  have hplace (r : ρ) : key (f' r) = key r ∧ group (f' r) = group r ∧
      position (f' r) = position r := by
    simp only [f']
    split
    · exact ⟨hkey r, hgroup r, hposition r⟩
    · exact ⟨rfl, rfl, rfl⟩
  have hselect : ((t.update p f hkey).select fun r => group r == g) =
      (t.select fun r => group r == g).map f' := by
    simp only [select, update, List.filter_map]
    congr 2
    funext r
    simp only [Function.comp_apply, ← (hplace r).2.1]
    rfl
  have hbefore (a b : ρ) : Before a b ↔ Before (f' a) (f' b) := by
    simp only [Before, (hplace a).1, (hplace a).2.2, (hplace b).1, (hplace b).2.2]
  rw [slots, slots, ordered, ordered, hselect,
    ← List.map_insertionSort Before Before f' _ fun a _ b _ => hbefore a b,
    List.map_map]
  exact List.map_congr_left fun r _ => (hplace r).1

/-- A rewrite that leaves every row in its place leaves the places. -/
theorem places_update {t : Table ρ} {p : ρ → Bool} {f : ρ → ρ} {hkey}
    (hgroup : ∀ r, group (f r) = group r)
    (hposition : ∀ r, position (f r) = position r) : (t.update p f hkey).places = t.places := by
  rw [places, places, update, List.map_map]
  refine List.map_congr_left fun r _ => ?_
  by_cases hp : p r = true
  · simp [hp, hkey, hgroup, hposition]
  · simp [hp]

/-! ## Renumbering -/

theorem rows_renumberFrom {t : Table ρ} {n : Nat} {ids : List Int} (hnd : ids.Nodup) :
    (t.renumberFrom n ids).rows =
      t.rows.map fun r => if key r ∈ ids then setPosition (n + ids.idxOf (key r) : Nat)
        r else r := by
  induction ids generalizing t n with
  | nil => simp [renumberFrom]
  | cons k ks ih =>
      obtain ⟨hk, hks⟩ := List.nodup_cons.mp hnd
      rw [renumberFrom, ih hks]
      simp only [update, List.map_map]
      refine List.map_congr_left fun r _ => ?_
      by_cases hr : key r = k
      · simp [hr, hk]
      · have hne : k ≠ key r := fun h => hr h.symm
        simp [hr, hne, Nat.add_assoc, Nat.add_comm 1]

/-- Positions do not show in an image that ignores them. -/
theorem map_renumber {σ : Type} [Keyed σ] {t : Table ρ} {g : ρ → σ} {hg : ∀ r, key (g r) = key r}
    (hpos : ∀ i r, g (setPosition i r) = g r) (ids : List Int) :
    (t.renumber ids).map g hg = t.map g hg := by
  rw [renumber]
  generalize 0 = n
  induction ids generalizing t n with
  | nil => rfl
  | cons k ks ih =>
      rw [renumberFrom, ih]
      exact map_update_self (hpos n)

theorem mem_renumber {t : Table ρ} {ids : List Int} (hnd : ids.Nodup) {r : ρ} :
    r ∈ t.renumber ids ↔
      ∃ r₀ ∈ t, (if key r₀ ∈ ids then setPosition (ids.idxOf (key r₀)) r₀ else r₀) = r := by
  rw [renumber, mem_def, rows_renumberFrom hnd]
  simp [mem_def]

/-! ## Arranged groups -/

/-- Group `g` holds exactly the keys of `ids`, each at its index. -/
structure Arranged (t : Table ρ) (g : Int) (ids : List Int) : Prop where
  nodup : ids.Nodup
  placed : ∀ r ∈ t, group r = g → key r ∈ ids ∧ position r = ids.idxOf (key r)
  present : ∀ k ∈ ids, ∃ r ∈ t, group r = g ∧ key r = k

/-- A query over rows at their index in `ids` answers in the order of `ids`. -/
theorem map_key_ordered {t : Table ρ} {p : ρ → Bool} {ids part : List Int} (hnd : ids.Nodup)
    (hpart : part.Sublist ids) (hpos : ∀ r ∈ t, p r = true → position r = ids.idxOf (key r))
    (hmem : ∀ k, k ∈ part ↔ ∃ r ∈ t, p r = true ∧ key r = k) : (t.ordered p).map key = part := by
  have hperm : (t.ordered p).Perm (t.select p) := List.perm_insertionSort _ _
  have hkeys : ((t.ordered p).map key).Nodup :=
    (hperm.map key).nodup_iff.mpr (t.nodup_keys.sublist (List.filter_sublist.map key))
  have hin : ∀ k, k ∈ (t.ordered p).map key ↔ k ∈ part := by
    intro k
    rw [hmem]
    simp [mem_ordered, and_assoc]
  refine @List.Perm.eq_of_pairwise _ (fun a b => ids.idxOf a < ids.idxOf b) _ _ ?_ ?_ ?_ ?_
  · intro a b _ _ hab hba
    omega
  · have hne := List.pairwise_map.mp hkeys
    have hboth := (List.pairwise_insertionSort (Before : ρ → ρ → Prop) (t.select p)).and hne
    refine List.pairwise_map.mpr (List.Pairwise.imp_of_mem ?_ hboth)
    intro a b ha hb hab
    have ha' := mem_ordered.mp ha
    have hb' := mem_ordered.mp hb
    have hpa := hpos a ha'.1 ha'.2
    have hpb := hpos b hb'.1 hb'.2
    have hka : key a ∈ ids := hpart.subset ((hmem _).mpr ⟨a, ha'.1, ha'.2, rfl⟩)
    have hkb : key b ∈ ids := hpart.subset ((hmem _).mpr ⟨b, hb'.1, hb'.2, rfl⟩)
    have hidx : ids.idxOf (key a) ≠ ids.idxOf (key b) := fun h => hab.2 ((List.idxOf_inj hka).mp h)
    have hbef := hab.1
    unfold Before at hbef
    omega
  · refine List.Pairwise.sublist hpart ?_
    refine List.pairwise_iff_getElem.mpr fun i j hi hj hij => ?_
    rwa [hnd.idxOf_getElem, hnd.idxOf_getElem]
  · exact (List.perm_ext_iff_of_nodup hkeys (hnd.sublist hpart)).mpr hin

namespace Arranged

variable {t : Table ρ} {g x : Int} {ids : List Int}

theorem mem_iff (h : Arranged t g ids) {k : Int} : k ∈ ids ↔ ∃ r ∈ t, group r = g ∧ key r = k := by
  refine ⟨h.present k, ?_⟩
  rintro ⟨r, hr, hg, rfl⟩
  exact (h.placed r hr hg).1

theorem slots_eq (h : Arranged t g ids) : t.slots g = ids := by
  refine map_key_ordered h.nodup (List.Sublist.refl _) ?_ ?_
  · intro r hr hg
    exact (h.placed r hr (by simpa using hg)).2
  · intro k
    simpa using h.mem_iff

/-- The positions of an arranged group, in order, are `0, …, n-1`. -/
theorem positions_eq (h : Arranged t g ids) :
    (t.ordered fun r => group r == g).map position = (List.range ids.length).map fun i : Nat =>
      (i : Int) := by
  have hslots := h.slots_eq
  have hmap : (t.ordered fun r => group r == g).map position =
      (t.slots g).map fun k => (ids.idxOf k : Int) := by
    rw [slots, List.map_map]
    refine List.map_congr_left fun r hr => ?_
    obtain ⟨hr, hg⟩ := mem_ordered.mp hr
    exact (h.placed r hr (by simpa using hg)).2
  rw [hmap, hslots]
  refine List.ext_getElem (by simp) fun i hi _ => ?_
  simp [h.nodup.idxOf_getElem]

theorem endPosition_eq (h : Arranged t g ids) : t.endPosition g = ids.length := by
  have hperm :=
    ((List.perm_insertionSort (Before : ρ → ρ → Prop)
      (t.select fun r => group r == g)).map position)
  have hpos : (((t.select fun r => group r == g).map position).Perm
      ((List.range ids.length).map fun i : Nat => (i : Int))) := by
    rw [← h.positions_eq]
    exact hperm.symm
  unfold endPosition
  cases hn : ids.length with
  | zero =>
      rw [hn] at hpos
      simp [List.perm_nil.mp (by simpa using hpos)]
  | succ n =>
      rw [hn] at hpos
      have hmax : ((t.select fun r => group r == g).map position).max? = some (n : Int) := by
        refine List.max?_eq_some_iff.mpr ⟨hpos.mem_iff.mpr ?_, fun b hb => ?_⟩
        · exact List.mem_map.mpr ⟨n, List.mem_range.mpr (Nat.lt_succ_self n), rfl⟩
        · have hb' := hpos.mem_iff.mp hb
          simp only [List.mem_map, List.mem_range] at hb'
          obtain ⟨i, hi, rfl⟩ := hb'
          omega
      rw [hmax]
      simp

/-- A group whose rows are the same rows is arranged as before. -/
theorem congr {t' : Table ρ} (h : Arranged t g ids)
    (hrows : ∀ r, group r = g → (r ∈ t' ↔ r ∈ t)) : Arranged t' g ids where
  nodup := h.nodup
  placed r hr hg := h.placed r ((hrows r hg).mp hr) hg
  present k hk := by
    obtain ⟨r, hr, hg, hkey⟩ := h.present k hk
    exact ⟨r, (hrows r hg).mpr hr, hg, hkey⟩

end Arranged

/-- After renumbering the keys of a group in some order, it is arranged in that order. -/
theorem arranged_renumber {t : Table ρ} {g : Int} {ids : List Int} (hnd : ids.Nodup)
    (hmem : ∀ k, k ∈ ids ↔ ∃ r ∈ t, group r = g ∧ key r = k) : Arranged (t.renumber ids) g ids where
  nodup := hnd
  placed r hr hg := by
    obtain ⟨r₀, hr₀, rfl⟩ := (mem_renumber hnd).mp hr
    have hg₀ : group r₀ = g := by
      split at hg <;> simpa using hg
    have hk : key r₀ ∈ ids := (hmem _).mpr ⟨r₀, hr₀, hg₀, rfl⟩
    simp [hk]
  present k hk := by
    obtain ⟨r, hr, hg, rfl⟩ := (hmem k).mp hk
    exact ⟨_, (mem_renumber hnd).mpr ⟨r, hr, rfl⟩, by simp [hk, hg], by simp [hk]⟩

/-- A renumbered group is arranged, whatever its positions were. -/
theorem arranged_renumber_slots {t : Table ρ} {g : Int} :
    Arranged (t.renumber (t.slots g)) g (t.slots g) :=
  arranged_renumber nodup_slots fun _ => mem_slots

/-- Renumbering the keys of one group leaves the other groups as they were. -/
theorem Arranged.renumber_of_ne {t : Table ρ} {g h : Int} {ids other : List Int} (hnd : ids.Nodup)
    (hmem : ∀ k ∈ ids, ∃ r ∈ t, group r = g ∧ key r = k) (hne : h ≠ g) (ha : Arranged t h other) :
    Arranged (t.renumber ids) h other := by
  have hout : ∀ r ∈ t, group r = h → key r ∉ ids := by
    intro r hr hg hk
    obtain ⟨r', hr', hg', hk'⟩ := hmem _ hk
    have := eq_of_key_eq hr hr' hk'.symm
    subst this
    exact hne (hg.symm.trans hg')
  refine ha.congr fun r hg => ?_
  rw [mem_renumber hnd]
  constructor
  · rintro ⟨r₀, hr₀, rfl⟩
    have hg₀ : group r₀ = h := by
      split at hg <;> simpa using hg
    simpa [hout r₀ hr₀ hg₀] using hr₀
  · intro hr
    exact ⟨r, hr, by simp [hout r hr hg]⟩

/-! ## Groups with gaps -/

/-- Group `g` holds exactly the keys of `part`, in that order, but its positions may have gaps. -/
structure Listed (t : Table ρ) (g : Int) (part : List Int) : Prop where
  frame : ∃ ids : List Int, ids.Nodup ∧ part.Sublist ids ∧
    ∀ r ∈ t, group r = g → position r = ids.idxOf (key r)
  mem_iff : ∀ k, k ∈ part ↔ ∃ r ∈ t, group r = g ∧ key r = k

theorem Arranged.listed {t : Table ρ} {g : Int} {ids : List Int} (h : Arranged t g ids) :
    Listed t g ids where
  frame := ⟨ids, h.nodup, List.Sublist.refl _, fun r hr hg => (h.placed r hr hg).2⟩
  mem_iff _ := h.mem_iff

theorem Listed.slots_eq {t : Table ρ} {g : Int} {part : List Int} (h : Listed t g part) :
    t.slots g = part := by
  obtain ⟨ids, hnd, hsub, hpos⟩ := h.frame
  refine map_key_ordered hnd hsub (fun r hr hg => hpos r hr (by simpa using hg)) fun k => ?_
  simpa using h.mem_iff k

theorem Listed.nodup {t : Table ρ} {g : Int} {part : List Int} (h : Listed t g part) :
    part.Nodup := by
  obtain ⟨ids, hnd, hsub, _⟩ := h.frame
  exact hnd.sublist hsub

/-- Dropping some rows of a listed group keeps the others in order. -/
theorem Listed.drop {t t' : Table ρ} {g x : Int} {part : List Int} (h : Listed t g part)
    (hrows : ∀ r, group r = g → (r ∈ t' ↔ r ∈ t ∧ key r ≠ x)) :
    Listed t' g (part.filter (· != x)) where
  frame := by
    obtain ⟨ids, hnd, hsub, hpos⟩ := h.frame
    exact ⟨ids, hnd, List.filter_sublist.trans hsub,
      fun r hr hg => hpos r ((hrows r hg).mp hr).1 hg⟩
  mem_iff k := by
    simp only [List.mem_filter, h.mem_iff, bne_iff_ne, ne_eq]
    constructor
    · rintro ⟨⟨r, hr, hg, rfl⟩, hx⟩
      exact ⟨r, (hrows r hg).mpr ⟨hr, hx⟩, hg, rfl⟩
    · rintro ⟨r, hr, hg, rfl⟩
      obtain ⟨hr, hx⟩ := (hrows r hg).mp hr
      exact ⟨⟨r, hr, hg, rfl⟩, hx⟩

/-- Renumbering a listed group closes its gaps. -/
theorem Listed.compact {t : Table ρ} {g : Int} {part : List Int} (h : Listed t g part) :
    Arranged (t.renumber (t.slots g)) g part := by
  rw [h.slots_eq]
  exact arranged_renumber h.nodup h.mem_iff

/-- Which rows of a group other than the renumbered one a renumbering leaves. -/
theorem mem_renumber_of_group_ne {t : Table ρ} {g : Int} {ids : List Int} (hnd : ids.Nodup)
    (hmem : ∀ k ∈ ids, ∃ r ∈ t, group r = g ∧ key r = k) {r : ρ} (hr : group r ≠ g) :
    r ∈ t.renumber ids ↔ r ∈ t := by
  have hout : ∀ r ∈ t, group r ≠ g → key r ∉ ids := by
    intro r hr hg hk
    obtain ⟨r', hr', hg', hk'⟩ := hmem _ hk
    have := eq_of_key_eq hr hr' hk'.symm
    subst this
    exact hg hg'
  rw [mem_renumber hnd]
  constructor
  · rintro ⟨r₀, hr₀, rfl⟩
    have hg₀ : group r₀ ≠ g := by
      split at hr <;> simpa using hr
    simpa [hout r₀ hr₀ hg₀] using hr₀
  · intro hin
    exact ⟨r, hin, by simp [hout r hin hr]⟩

end Table

/-! ## Arrangements -/

/-- The keys of each group, in order. -/
abbrev Arrangement := Int → List Int

namespace Arrangement

/-- Take `x` out of every group. -/
def remove (A : Arrangement) (x : Int) : Arrangement := fun g => (A g).filter (· != x)

/-- Take `x` out of every group and put it into group `g` at index `i`. -/
def place (A : Arrangement) (x g : Int) (i : Nat) : Arrangement := fun h =>
  if h = g then (A.remove x g).insertIdx i x else A.remove x h

/-- Put `x` into group `g` at the position, which is brought into range; at the end without one. -/
def put (A : Arrangement) (x g : Int) (position : Option Int) : Arrangement :=
  A.place x g (match position with
    | some p => (max 0 (min p (A.remove x g).length)).toNat
    | none => (A.remove x g).length)

/-- Append the keys to group `g`. -/
def append (A : Arrangement) (g : Int) (ids : List Int) : Arrangement :=
  fun h => if h = g then A g ++ ids else A h

/-- Append group `src` to group `dst`. -/
def merge (A : Arrangement) (src dst : Int) : Arrangement := fun h =>
  if h = src then [] else if h = dst then A dst ++ A src else A h

/-- Each key is in one group, once. -/
structure Disjoint (A : Arrangement) : Prop where
  nodup : ∀ g, (A g).Nodup
  group_unique : ∀ {x g h}, x ∈ A g → x ∈ A h → g = h

theorem remove_of_not_mem {A : Arrangement} {x g : Int} (h : x ∉ A g) : A.remove x g = A g := by
  refine List.filter_eq_self.mpr fun k hk => ?_
  simpa using fun hkx : k = x => h (hkx ▸ hk)

theorem not_mem_remove {A : Arrangement} {x g : Int} : x ∉ A.remove x g := by simp [remove]

theorem filter_insertIdx (l : List Int) (i : Nat) (x : Int) :
    (l.insertIdx i x).filter (· != x) = l.filter (· != x) := by
  induction l generalizing i with
  | nil => cases i <;> simp
  | cons a l ih =>
      cases i with
      | zero => simp
      | succ i => simp [List.insertIdx_succ_cons, List.filter_cons, ih]

theorem remove_remove {A : Arrangement} {x : Int} : (A.remove x).remove x = A.remove x := by
  funext h
  simp [remove, List.filter_filter]

/-- Every group keeps the order of its other keys when one key is placed. -/
theorem remove_place {A : Arrangement} {x g : Int} {i : Nat} :
    (A.place x g i).remove x = A.remove x := by
  funext h
  by_cases hg : h = g
  · subst hg
    have hrr := congrFun (remove_remove (A := A) (x := x)) h
    simp only [remove, place, ↓reduceIte] at hrr ⊢
    rw [filter_insertIdx, hrr]
  · have hrr := congrFun (remove_remove (A := A) (x := x)) h
    simpa only [remove, place, hg, ↓reduceIte] using hrr

theorem place_place {A : Arrangement} {x g h : Int} {i j : Nat} :
    (A.place x g i).place x h j = A.place x h j := by
  funext k
  simp only [place.eq_def (A.place x g i), remove_place]
  rfl

theorem put_place {A : Arrangement} {x g h : Int} {i : Nat} {position : Option Int} :
    (A.place x g i).put x h position = A.put x h position := by
  simp only [put, remove_place, place_place]

theorem put_put {A : Arrangement} {x g h : Int} {first position : Option Int} :
    (A.put x g first).put x h position = A.put x h position := put_place

theorem put_none {A : Arrangement} {x g : Int} (hx : ∀ h, x ∉ A h) :
    A.put x g none = A.append g [x] := by
  funext h
  simp only [put, place, append, remove_of_not_mem (hx _), List.insertIdx_length_self]

theorem append_append {A : Arrangement} {g : Int} {ids ids' : List Int} :
    (A.append g ids).append g ids' = A.append g (ids ++ ids') := by
  funext h
  by_cases hg : h = g <;> simp [append, hg]

theorem append_nil {A : Arrangement} {g : Int} : A.append g [] = A := by
  funext h
  by_cases hg : h = g <;> simp [append, hg]

theorem mem_place {A : Arrangement} {x g : Int} {i : Nat} (hi : i ≤ (A.remove x g).length)
    {k h : Int} : k ∈ A.place x g i h ↔ (k = x ∧ h = g) ∨ (k ≠ x ∧ k ∈ A h) := by
  have hrem : ∀ h, k ∈ A.remove x h ↔ k ≠ x ∧ k ∈ A h := by
    intro h
    simp [remove, and_comm]
  by_cases hg : h = g
  · subst hg
    simp [place, List.mem_insertIdx hi, hrem]
  · simp [place, hg, hrem]

theorem Disjoint.remove {A : Arrangement} (hA : A.Disjoint) (x : Int) : (A.remove x).Disjoint where
  nodup g := (hA.nodup g).filter _
  group_unique h₁ h₂ := hA.group_unique (List.mem_of_mem_filter h₁) (List.mem_of_mem_filter h₂)

end Arrangement

namespace Table

/-! ## Arranged tables -/

/-- Every group of the table holds its keys in the order of the arrangement, at positions
`0, …, n-1`. -/
def Arranges (t : Table ρ) (A : Arrangement) : Prop := ∀ g, Arranged t g (A g)

/-- As `Arranges`, but the positions in group `s` may have gaps. -/
structure ArrangesBut (t : Table ρ) (A : Arrangement) (s : Int) : Prop where
  gaps : Listed t s (A s)
  rest : ∀ g, g ≠ s → Arranged t g (A g)

variable {t t' : Table ρ} {A : Arrangement} {s g x : Int}

theorem Arranges.but (h : t.Arranges A) (s : Int) : t.ArrangesBut A s :=
  ⟨(h s).listed, fun g _ => h g⟩

theorem ArrangesBut.listed (h : t.ArrangesBut A s) (g : Int) : Listed t g (A g) := by
  by_cases hg : g = s
  · exact hg ▸ h.gaps
  · exact (h.rest g hg).listed

theorem ArrangesBut.disjoint (h : t.ArrangesBut A s) : A.Disjoint where
  nodup g := (h.listed g).nodup
  group_unique {x g g'} hg hg' := by
    obtain ⟨r, hr, rfl, hk⟩ := ((h.listed g).mem_iff x).mp hg
    obtain ⟨r', hr', rfl, hk'⟩ := ((h.listed g').mem_iff x).mp hg'
    rw [eq_of_key_eq hr hr' (hk.trans hk'.symm)]

theorem Arranges.disjoint (h : t.Arranges A) : A.Disjoint := (h.but 0).disjoint

/-- Tables whose rows stand in the same places are arranged alike. -/
theorem Arranges.of_places (h : t.Arranges A) (hplaces : t'.places = t.places) : t'.Arranges A := by
  have hmem (x : Int × Int × Int) : (∃ r ∈ t', (key r, group r, position r) = x) ↔
      ∃ r ∈ t, (key r, group r, position r) = x := by
    have hx : x ∈ t'.places ↔ x ∈ t.places := by rw [hplaces]
    simpa only [places, List.mem_map, mem_def] using hx
  intro g
  refine ⟨(h g).nodup, fun r hr hg => ?_, fun k hk => ?_⟩
  · obtain ⟨r₀, hr₀, heq⟩ := (hmem _).mp ⟨r, hr, rfl⟩
    simp only [Prod.mk.injEq] at heq
    rw [← heq.1, ← heq.2.2]
    exact (h g).placed r₀ hr₀ (heq.2.1.trans hg)
  · obtain ⟨r₀, hr₀, hg, rfl⟩ := (h g).present k hk
    obtain ⟨r, hr, heq⟩ := (hmem _).mpr ⟨r₀, hr₀, rfl⟩
    simp only [Prod.mk.injEq] at heq
    exact ⟨r, hr, heq.2.1.trans hg, heq.1⟩

theorem Arranges.slots_eq (h : t.Arranges A) : t.slots = A := funext fun g => (h g).slots_eq

/-- Closing the gaps of the one group that has them. -/
theorem ArrangesBut.compact (h : t.ArrangesBut A s) : (t.renumber (t.slots s)).Arranges A := by
  intro g
  by_cases hg : g = s
  · exact hg ▸ h.gaps.compact
  · have hmem := h.gaps.mem_iff
    have hnd := h.gaps.nodup
    rw [h.gaps.slots_eq]
    exact (h.rest g hg).renumber_of_ne hnd (fun k hk => (hmem k).mp hk) hg

/-- A new row at the end of its group. -/
theorem Arranges.insert (h : t.Arranges A) {row : Int → ρ} {hkey}
    (hg : group (row t.nextKey) = g) (hp : position (row t.nextKey) = t.endPosition g) :
    (t.insert row hkey).Arranges (A.place t.nextKey g (A g).length) := by
  have hnew : ∀ k, t.nextKey ∉ A k := by
    intro k hk
    obtain ⟨r, hr, _, hkr⟩ := (h k).present _ hk
    exact (lt_nextKey hr).ne hkr
  rw [(h g).endPosition_eq] at hp
  intro k
  by_cases hk : k = g
  · subst hk
    have hplace : A.place t.nextKey k (A k).length k = A k ++ [t.nextKey] := by
      simp only [Arrangement.place, ↓reduceIte, Arrangement.remove_of_not_mem (hnew k)]
      exact List.insertIdx_length_self
    rw [hplace]
    refine ⟨?_, ?_, ?_⟩
    · refine List.nodup_append.mpr ⟨(h k).nodup, by simp, ?_⟩
      intro a ha b hb hab
      rw [List.mem_singleton.mp hb] at hab
      exact hnew k (hab ▸ ha)
    · intro r hr hrg
      rcases mem_insert.mp hr with hr | rfl
      · obtain ⟨hmem, hpos⟩ := (h k).placed r hr hrg
        refine ⟨by simp [hmem], ?_⟩
        rw [hpos, List.idxOf_append_of_mem hmem]
      · rw [hkey]
        refine ⟨by simp, ?_⟩
        rw [hp, List.idxOf_append_of_notMem (hnew k)]
        simp
    · intro k' hk'
      rcases List.mem_append.mp hk' with hk' | hk'
      · obtain ⟨r, hr, hrg, hrk⟩ := (h k).present k' hk'
        exact ⟨r, mem_insert.mpr (.inl hr), hrg, hrk⟩
      · exact ⟨_, mem_insert.mpr (.inr rfl), hg, by rw [hkey, List.mem_singleton.mp hk']⟩
  · have hplace : A.place t.nextKey g (A g).length k = A k := by
      simp [Arrangement.place, hk, Arrangement.remove_of_not_mem (hnew k)]
    rw [hplace]
    refine (h k).congr fun r hr => ?_
    rw [mem_insert]
    refine ⟨fun hin => hin.resolve_right ?_, Or.inl⟩
    rintro rfl
    exact hk (hr.symm.trans hg)

/-- One row leaves the table. -/
theorem Arranges.delete (h : t.Arranges A) (hx : x ∈ A s) :
    (t.delete fun r => key r == x).ArrangesBut (A.remove x) s where
  gaps := (h s).listed.drop fun r _ => by simp
  rest g hg := by
    have hx' : x ∉ A g := fun hin => hg (h.disjoint.group_unique hin hx)
    rw [Arrangement.remove_of_not_mem hx']
    refine (h g).congr fun r hr => ?_
    simp only [mem_delete, beq_eq_false_iff_ne, ne_eq, and_iff_left_iff_imp]
    intro hin hk
    exact hx' ((h g).mem_iff.mpr ⟨r, hin, hr, hk⟩)

/-- `t'` is `t` with the row of `x` moved into group `g`. -/
structure MovedRow (t t' : Table ρ) (x g : Int) : Prop where
  same : ∀ r, key r ≠ x → (r ∈ t' ↔ r ∈ t)
  moved : ∃ r ∈ t', key r = x ∧ group r = g

theorem movedRow_self {r : ρ} (hr : r ∈ t) : MovedRow t t (key r) (group r) :=
  ⟨fun _ _ => Iff.rfl, r, hr, rfl, rfl⟩

/-- A rewrite that moves one row. -/
theorem movedRow_update {f : ρ → ρ} {hkey} (hx : ∃ r ∈ t, key r = x) (hf : ∀ r, group (f r) = g) :
    MovedRow t (t.update (fun r => key r == x) f hkey) x g where
  same r hr := by
    rw [mem_update]
    constructor
    · rintro ⟨r₀, hr₀, rfl⟩
      by_cases hk : key r₀ = x
      · simp [hk, hkey] at hr
      · simpa [hk] using hr₀
    · intro hin
      exact ⟨r, hin, by simp [hr]⟩
  moved := by
    obtain ⟨r, hr, rfl⟩ := hx
    exact ⟨f r, mem_update.mpr ⟨r, hr, by simp⟩, hkey r, hf r⟩

theorem MovedRow.group_of_mem (h : MovedRow t t' x g) {r : ρ} (hr : r ∈ t') (hk : key r = x) :
    group r = g := by
  obtain ⟨r', hr', hk', hg'⟩ := h.moved
  rwa [eq_of_key_eq hr hr' (hk.trans hk'.symm)]

theorem MovedRow.others_eq (h : MovedRow t t' x g) : t'.others g x = t.others g x := by
  rw [others, others, ordered, ordered]
  congr 2
  refine select_congr fun r => ?_
  simp only [Bool.and_eq_true, beq_iff_eq, bne_iff_ne]
  constructor
  · rintro ⟨hr, hg, hk⟩
    exact ⟨(h.same r hk).mp hr, hg, hk⟩
  · rintro ⟨hr, hg, hk⟩
    exact ⟨(h.same r hk).mpr hr, hg, hk⟩

/-- A row moved to the end of a group it was not in. -/
theorem MovedRow.appended (h : MovedRow t t' x g) (hx : x ∉ t.slots g) :
    t'.others g x = t.slots g ∧ Arranged (t'.renumber (t.slots g ++ [x])) g (t.slots g ++ [x]) := by
  have hothers : t'.others g x = t.slots g := by
    rw [h.others_eq, others_eq_filter]
    exact List.filter_eq_self.mpr fun k hk => by simpa using fun heq : k = x => hx (heq ▸ hk)
  refine ⟨hothers, arranged_renumber ?_ fun k => ?_⟩
  · refine List.nodup_append.mpr ⟨nodup_slots, List.nodup_singleton x, fun a ha b hb hab => ?_⟩
    rw [List.mem_singleton.mp hb] at hab
    exact hx (hab ▸ ha)
  · rw [List.mem_append, mem_slots, List.mem_singleton]
    constructor
    · rintro (⟨r, hr, hg, rfl⟩ | rfl)
      · exact ⟨r, (h.same r fun heq => hx (mem_slots.mpr ⟨r, hr, hg, heq⟩)).mpr hr, hg, rfl⟩
      · obtain ⟨r, hr, hk, hg⟩ := h.moved
        exact ⟨r, hr, hg, hk⟩
    · rintro ⟨r, hr, hg, rfl⟩
      by_cases hk : key r = x
      · exact .inr hk
      · exact .inl ⟨r, (h.same r hk).mp hr, hg, rfl⟩

/-- The keys of group `g` other than the moved one, as the moved table lists them. -/
theorem ArrangesBut.others_moved (h : t.ArrangesBut A s) (hm : MovedRow t t' x g) :
    t'.others g x = A.remove x g := by
  obtain ⟨ids, hnd, hsub, hpos⟩ := (h.listed g).frame
  refine map_key_ordered hnd (List.filter_sublist.trans hsub) ?_ ?_
  · intro r hr hp
    simp only [Bool.and_eq_true, beq_iff_eq, bne_iff_ne] at hp
    exact hpos r ((hm.same r hp.2).mp hr) hp.1
  · intro k
    simp only [Arrangement.remove, List.mem_filter, (h.listed g).mem_iff, bne_iff_ne, ne_eq,
      Bool.and_eq_true, beq_iff_eq]
    constructor
    · rintro ⟨⟨r, hr, hg, rfl⟩, hx⟩
      exact ⟨r, (hm.same r hx).mpr hr, ⟨hg, hx⟩, rfl⟩
    · rintro ⟨r, hr, ⟨hg, hx⟩, rfl⟩
      exact ⟨⟨r, (hm.same r hx).mp hr, hg, rfl⟩, hx⟩

/-- The row of `x` leaves group `s` for index `i` of group `g`, which is renumbered. -/
theorem ArrangesBut.place (h : t.ArrangesBut A s) (hx : x ∈ A s) (hm : MovedRow t t' x g) {i : Nat}
    (hi : i ≤ (A.remove x g).length) :
    (t'.renumber ((t'.others g x).insertIdx i x)).ArrangesBut (A.place x g i) s ∧
      Arranged (t'.renumber ((t'.others g x).insertIdx i x)) g (A.place x g i g) := by
  rw [h.others_moved hm]
  have hids : A.place x g i g = (A.remove x g).insertIdx i x := by simp [Arrangement.place]
  have hnd : ((A.remove x g).insertIdx i x).Nodup := by
    have hp := List.perm_insertIdx x (A.remove x g) hi
    rw [hp.nodup_iff, List.nodup_cons]
    exact ⟨Arrangement.not_mem_remove, (h.disjoint.remove x).nodup g⟩
  have hmem : ∀ k, k ∈ (A.remove x g).insertIdx i x ↔ ∃ r ∈ t', group r = g ∧ key r = k := by
    intro k
    rw [← hids, Arrangement.mem_place hi, (h.listed g).mem_iff]
    constructor
    · rintro (⟨rfl, _⟩ | ⟨hk, r, hr, hg, rfl⟩)
      · obtain ⟨r, hr, hk, hg⟩ := hm.moved
        exact ⟨r, hr, hg, hk⟩
      · exact ⟨r, (hm.same r hk).mpr hr, hg, rfl⟩
    · rintro ⟨r, hr, hg, rfl⟩
      by_cases hk : key r = x
      · exact .inl ⟨hk, rfl⟩
      · exact .inr ⟨hk, r, (hm.same r hk).mp hr, hg, rfl⟩
  have hat : Arranged (t'.renumber ((A.remove x g).insertIdx i x)) g (A.place x g i g) := by
    rw [hids]
    exact arranged_renumber hnd hmem
  have hoff : ∀ k, k ≠ g →
      Listed (t'.renumber ((A.remove x g).insertIdx i x)) k (A.place x g i k) := by
    intro k hk
    simp only [Arrangement.place, hk, ↓reduceIte]
    refine (h.listed k).drop fun r hr => ?_
    have hrg : group r ≠ g := fun hg => hk (hr.symm.trans hg)
    rw [mem_renumber_of_group_ne hnd (fun k hk => (hmem k).mp hk) hrg]
    constructor
    · intro hin
      have hkx : key r ≠ x := fun hkx => hrg (hm.group_of_mem hin hkx)
      exact ⟨(hm.same r hkx).mp hin, hkx⟩
    · rintro ⟨hin, hkx⟩
      exact (hm.same r hkx).mpr hin
  refine ⟨⟨?_, ?_⟩, hat⟩
  · by_cases hsg : s = g
    · exact hsg ▸ hat.listed
    · exact hoff s hsg
  · intro k hk
    by_cases hkg : k = g
    · exact hkg ▸ hat
    · have hxk : x ∉ A k := fun hin => hk (h.disjoint.group_unique hin hx)
      simp only [Arrangement.place, hkg, ↓reduceIte, Arrangement.remove_of_not_mem hxk]
      refine (h.rest k hk).congr fun r hr => ?_
      have hrg : group r ≠ g := fun hg => hkg (hr.symm.trans hg)
      rw [mem_renumber_of_group_ne hnd (fun k hk => (hmem k).mp hk) hrg]
      by_cases hkx : key r = x
      · constructor
        · intro hin
          exact absurd (hm.group_of_mem hin hkx) hrg
        · intro hin
          exact absurd ((h.rest k hk).mem_iff.mpr ⟨r, hin, hr, hkx⟩) hxk
      · exact hm.same r hkx

/-- A row placed inside the group it is in. -/
theorem Arranges.place_same (h : t.Arranges A) (hx : x ∈ A g) {i : Nat}
    (hi : i ≤ (A.remove x g).length) (hm : MovedRow t t' x g) :
    (t'.renumber ((t'.others g x).insertIdx i x)).Arranges (A.place x g i) := by
  obtain ⟨hbut, hat⟩ := (h.but g).place hx hm hi
  intro k
  by_cases hk : k = g
  · exact hk ▸ hat
  · exact hbut.rest k hk

/-- A row placed in a group, and its former group closed up. -/
theorem Arranges.place_compact (h : t.Arranges A) (hx : x ∈ A s) (hm : MovedRow t t' x g) {i : Nat}
    (hi : i ≤ (A.remove x g).length) :
    let placed := t'.renumber ((t'.others g x).insertIdx i x)
    (placed.renumber (placed.slots s)).Arranges (A.place x g i) :=
  ((h.but s).place hx hm hi).1.compact

end Table

end Lib
