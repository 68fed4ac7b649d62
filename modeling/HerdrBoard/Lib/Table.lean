import Mathlib.Data.List.Basic
import Mathlib.Data.List.Nodup
import Mathlib.Order.Basic
import Mathlib.Order.Defs.LinearOrder
import Mathlib.Data.Int.Order.Basic
import Mathlib.Tactic.Common

/-!
# Tables of keyed rows

A table lists its rows by ascending key, as a b-tree keyed by an integer row id does. A new row gets
the largest key plus one, so no two rows share a key. -/

namespace Lib

/-- Rows of `ρ` have an integer row id. -/
class Keyed (ρ : Type) where
  key : ρ → Int

open Keyed (key)

variable {ρ : Type} [Keyed ρ]

/-- A table, its rows in ascending key order. -/
@[ext] structure Table (ρ : Type) [Keyed ρ] where
  rows : List ρ
  ascending : rows.Pairwise fun a b => key a < key b

namespace Table

instance [DecidableEq ρ] : DecidableEq (Table ρ) := fun s t =>
  decidable_of_iff (s.rows = t.rows) ⟨Table.ext, congrArg rows⟩

instance : Membership ρ (Table ρ) := ⟨fun t r => r ∈ t.rows⟩

theorem mem_def {t : Table ρ} {r : ρ} : r ∈ t ↔ r ∈ t.rows := Iff.rfl

/-! ## Operations -/

def empty : Table ρ := ⟨[], List.Pairwise.nil⟩

/-- The rows that satisfy `p`, by ascending key. -/
def select (t : Table ρ) (p : ρ → Bool) : List ρ := t.rows.filter p

/-- The row with key `k`. -/
def find? (t : Table ρ) (k : Int) : Option ρ := t.rows.find? fun r => key r == k

/-- The key of the next row: the largest key plus one, or 1 in an empty table. -/
def nextKey (t : Table ρ) : Int :=
  match t.rows.getLast? with
  | some r => key r + 1
  | none => 1

theorem lt_nextKey {t : Table ρ} {r : ρ} (hr : r ∈ t) : key r < t.nextKey := by
  rcases t.rows.eq_nil_or_concat with hnil | ⟨init, last, hlast⟩
  · rw [mem_def, hnil] at hr
    cases hr
  · have hasc := t.ascending
    have hnext : t.nextKey = key last + 1 := by simp [nextKey, hlast]
    rw [hlast, List.concat_eq_append, List.pairwise_append] at hasc
    rw [mem_def, hlast, List.concat_eq_append, List.mem_append, List.mem_singleton] at hr
    rcases hr with hr | rfl
    · have := hasc.2.2 r hr last (by simp)
      omega
    · omega

-- A bare `rfl` as the default proof of `hkey` would state `key (row k) = key (row k)`, which
-- rewriting does not match.

/-- Append a row under the next key. -/
def insert (t : Table ρ) (row : Int → ρ)
    (hkey : ∀ k, key (row k) = k := by intro k; exact Eq.trans rfl rfl) : Table ρ where
  rows := t.rows ++ [row t.nextKey]
  ascending := by
    refine List.pairwise_append.mpr ⟨t.ascending, List.pairwise_singleton _ _, ?_⟩
    intro a ha b hb
    rw [List.mem_singleton.mp hb, hkey]
    exact lt_nextKey ha

/-- Rewrite the rows that satisfy `p`. -/
def update (t : Table ρ) (p : ρ → Bool) (f : ρ → ρ)
    (hkey : ∀ r, key (f r) = key r := by intro r; exact Eq.trans rfl rfl) : Table ρ where
  rows := t.rows.map fun r => if p r then f r else r
  ascending := by
    refine List.pairwise_map.mpr (t.ascending.imp ?_)
    intro a b hab
    split <;> split <;> simpa [hkey] using hab

/-- Remove the rows that satisfy `p`. -/
def delete (t : Table ρ) (p : ρ → Bool) : Table ρ where
  rows := t.rows.filter fun r => !p r
  ascending := t.ascending.filter _

/-! ## Membership -/

@[simp] theorem mem_empty {r : ρ} : r ∈ (empty : Table ρ) ↔ False := by simp [mem_def, empty]

@[simp] theorem mem_select {t : Table ρ} {p : ρ → Bool} {r : ρ} :
    r ∈ t.select p ↔ r ∈ t ∧ p r = true := by
  simp [select, mem_def]

@[simp] theorem mem_insert {t : Table ρ} {row : Int → ρ} {hkey} {r : ρ} :
    r ∈ t.insert row hkey ↔ r ∈ t ∨ r = row t.nextKey := by
  simp [mem_def, insert]

theorem mem_insert_self {t : Table ρ} {row : Int → ρ} (hkey : ∀ k, key (row k) = k) :
    row t.nextKey ∈ t.insert row hkey := mem_insert.mpr (.inr rfl)

@[simp] theorem mem_update {t : Table ρ} {p : ρ → Bool} {f : ρ → ρ} {hkey} {r : ρ} :
    r ∈ t.update p f hkey ↔ ∃ r₀ ∈ t, (if p r₀ then f r₀ else r₀) = r := by
  simp [mem_def, update]

@[simp] theorem mem_delete {t : Table ρ} {p : ρ → Bool} {r : ρ} :
    r ∈ t.delete p ↔ r ∈ t ∧ p r = false := by
  simp [mem_def, delete]

/-- A key names at most one row. -/
theorem eq_of_key_eq {t : Table ρ} {a b : ρ} (ha : a ∈ t) (hb : b ∈ t) (hab : key a = key b) :
    a = b := by
  have hinj := (List.pairwise_map (f := key)).mpr (t.ascending.imp fun h => ne_of_lt h)
  exact List.inj_on_of_nodup_map hinj ha hb hab

theorem nodup_rows (t : Table ρ) : t.rows.Nodup :=
  t.ascending.imp fun h hab => h.ne (congrArg key hab)

theorem nodup_keys (t : Table ρ) : (t.rows.map key).Nodup :=
  List.pairwise_map.mpr (t.ascending.imp fun h => ne_of_lt h)

/-! ## Lookup -/

theorem find?_eq_some {t : Table ρ} {k : Int} {r : ρ} : t.find? k = some r ↔ r ∈ t ∧ key r = k := by
  constructor
  · intro h
    exact ⟨List.mem_of_find?_eq_some h, by simpa using List.find?_some h⟩
  · rintro ⟨hr, hk⟩
    cases hf : t.find? k with
    | none =>
        have := List.find?_eq_none.mp hf r hr
        simp [hk] at this
    | some r' =>
        have hr' : r' ∈ t := List.mem_of_find?_eq_some hf
        have hk' : key r' = k := by simpa using List.find?_some hf
        rw [eq_of_key_eq hr' hr (hk'.trans hk.symm)]

theorem find?_eq_none {t : Table ρ} {k : Int} : t.find? k = none ↔ ∀ r ∈ t, key r ≠ k := by
  simp [find?, mem_def]

theorem find?_key {t : Table ρ} {r : ρ} (hr : r ∈ t) : t.find? (key r) = some r :=
  find?_eq_some.mpr ⟨hr, rfl⟩

theorem mem_of_find? {t : Table ρ} {k : Int} {r : ρ} (h : t.find? k = some r) : r ∈ t :=
  (find?_eq_some.mp h).1

theorem key_of_find? {t : Table ρ} {k : Int} {r : ρ} (h : t.find? k = some r) : key r = k :=
  (find?_eq_some.mp h).2

theorem find?_nextKey (t : Table ρ) : t.find? t.nextKey = none :=
  find?_eq_none.mpr fun _ hr => ne_of_lt (lt_nextKey hr)

theorem nextKey_insert {t : Table ρ} {row : Int → ρ} {hkey} :
    (t.insert row hkey).nextKey = t.nextKey + 1 := by
  simp [nextKey, insert, hkey]

/-- Deleting rows and rewriting the others may be done in either order. -/
theorem update_delete {t : Table ρ} {p : ρ → Bool} {f : ρ → ρ} {hkey} (hp : ∀ r, p (f r) = p r) :
    (t.delete p).update (fun _ => true) f hkey = (t.update (fun _ => true) f hkey).delete p := by
  ext1
  simp [update, delete, List.filter_map, Function.comp_def, hp]

theorem find?_insert {t : Table ρ} {row : Int → ρ} {hkey} (k : Int) :
    (t.insert row hkey).find? k = if k = t.nextKey then some (row t.nextKey) else t.find? k := by
  split
  · next hk => exact find?_eq_some.mpr ⟨by simp, by rw [hkey, hk]⟩
  · next hk =>
      cases hf : t.find? k with
      | none =>
          refine find?_eq_none.mpr fun r hr => ?_
          rcases mem_insert.mp hr with hr | rfl
          · exact find?_eq_none.mp hf r hr
          · rw [hkey]
            exact fun h => hk h.symm
      | some r =>
          obtain ⟨hr, hkr⟩ := find?_eq_some.mp hf
          exact find?_eq_some.mpr ⟨mem_insert.mpr (.inl hr), hkr⟩

theorem find?_update {t : Table ρ} {p : ρ → Bool} {f : ρ → ρ} {hkey} (k : Int) :
    (t.update p f hkey).find? k = (t.find? k).map fun r => if p r then f r else r := by
  have hk : ∀ r, key (if p r then f r else r) = key r := by
    intro r
    split
    · exact hkey r
    · rfl
  cases hf : t.find? k with
  | none =>
      refine find?_eq_none.mpr fun r hr => ?_
      obtain ⟨r₀, hr₀, rfl⟩ := mem_update.mp hr
      rw [hk]
      exact find?_eq_none.mp hf r₀ hr₀
  | some r =>
      obtain ⟨hr, hkr⟩ := find?_eq_some.mp hf
      exact find?_eq_some.mpr ⟨mem_update.mpr ⟨r, hr, rfl⟩, (hk r).trans hkr⟩

theorem find?_delete {t : Table ρ} {p : ρ → Bool} (k : Int) :
    (t.delete p).find? k = (t.find? k).filter fun r => !p r := by
  cases hf : t.find? k with
  | none => exact find?_eq_none.mpr fun r hr => find?_eq_none.mp hf r (mem_delete.mp hr).1
  | some r =>
      obtain ⟨hr, hkr⟩ := find?_eq_some.mp hf
      cases hp : p r with
      | false =>
          simp only [Option.filter_some, hp, Bool.not_false, ↓reduceIte]
          exact find?_eq_some.mpr ⟨mem_delete.mpr ⟨hr, hp⟩, hkr⟩
      | true =>
          simp only [Option.filter_some, hp, Bool.not_true, Bool.false_eq_true, ↓reduceIte]
          refine find?_eq_none.mpr fun r' hr' hk' => ?_
          obtain ⟨hr', hp'⟩ := mem_delete.mp hr'
          rw [eq_of_key_eq hr' hr (hk'.trans hkr.symm), hp] at hp'
          cases hp'

/-! ## Keys -/

/-- The keys in use, in ascending order. -/
def keys (t : Table ρ) : List Int := t.rows.map key

theorem mem_keys {t : Table ρ} {k : Int} : k ∈ t.keys ↔ ∃ r ∈ t, key r = k := by
  simp [keys, mem_def]

@[simp] theorem keys_insert {t : Table ρ} {row : Int → ρ} {hkey} :
    (t.insert row hkey).keys = t.keys ++ [t.nextKey] := by simp [keys, insert, hkey]

@[simp] theorem keys_update {t : Table ρ} {p : ρ → Bool} {f : ρ → ρ} {hkey} :
    (t.update p f hkey).keys = t.keys := by
  simp only [keys, update, List.map_map]
  refine List.map_congr_left fun r _ => ?_
  simp only [Function.comp]
  split
  · exact hkey r
  · rfl

theorem nextKey_of_keys {t u : Table ρ} (h : t.keys = u.keys) : t.nextKey = u.nextKey := by
  have hlast : t.rows.getLast?.map key = u.rows.getLast?.map key := by
    rw [← List.getLast?_map, ← List.getLast?_map]
    exact congrArg List.getLast? h
  unfold nextKey
  cases ht : t.rows.getLast? <;> cases hu : u.rows.getLast? <;> simp_all

theorem find?_isSome_iff {t : Table ρ} {k : Int} : (t.find? k).isSome ↔ k ∈ t.keys := by
  rw [Option.isSome_iff_exists, mem_keys]
  simp [find?_eq_some]

/-- A query that only one row meets. -/
theorem select_eq_singleton {t : Table ρ} {p : ρ → Bool} {r : ρ} (hr : r ∈ t)
    (h : ∀ s ∈ t, p s = true ↔ s = r) : t.select p = [r] := by
  have hnodup : (t.select p).Nodup := t.nodup_rows.filter _
  refine List.perm_singleton.mp
    ((List.perm_ext_iff_of_nodup hnodup (List.nodup_singleton r)).mpr fun s => ?_)
  simp only [List.mem_singleton]
  show s ∈ t.select p ↔ s = r
  rw [mem_select]
  constructor
  · rintro ⟨hs, hp⟩
    exact (h s hs).mp hp
  · rintro rfl
    exact ⟨hr, (h s hr).mpr rfl⟩

/-- Rewriting rows of an untouched projection leaves the projection of the table as it was. -/
theorem map_rows_update {t : Table ρ} {p : ρ → Bool} {f : ρ → ρ} {hkey} {γ : Type} {g : ρ → γ}
    (hg : ∀ r, p r = true → g (f r) = g r) : (t.update p f hkey).rows.map g = t.rows.map g := by
  simp only [update, List.map_map]
  refine List.map_congr_left fun r _ => ?_
  simp only [Function.comp]
  split
  · next hp => exact hg r hp
  · rfl

/-- A selection that does not see an update. -/
theorem select_update {t : Table ρ} {p q : ρ → Bool} {f : ρ → ρ} {hkey} (hq : ∀ r, q (f r) = q r) :
    (t.update p f hkey).select q = (t.select q).map fun r => if p r then f r else r := by
  simp only [select, update, List.filter_map]
  congr 2
  funext r
  simp only [Function.comp_apply]
  split
  · exact hq r
  · rfl

/-- Rows that an update takes out of a selection. -/
theorem select_update_of_not {t : Table ρ} {p q : ρ → Bool} {f : ρ → ρ} {hkey}
    (hq : ∀ r, p r = true → q (f r) = false) :
    (t.update p f hkey).select q = (t.select q).filter fun r => !p r := by
  simp only [select, update]
  induction t.rows with
  | nil => rfl
  | cons r rows ih =>
      cases hp : p r with
      | true => cases hqr : q r <;> simp [hp, hqr, hq r hp, ih]
      | false => cases hqr : q r <;> simp [hp, hqr, ih]

/-- A rewrite of one row, told by what it does to that row. -/
theorem rows_rewrite_one {t : Table ρ} {r₀ : ρ} (h₀ : r₀ ∈ t) {p : ρ → Bool} {f g : ρ → ρ}
    (hp : ∀ r ∈ t, p r = true ↔ key r = key r₀) (hg : f r₀ = g r₀) :
    (t.rows.map fun r => if p r then f r else r) =
      t.rows.map fun r => if key r == key r₀ then g r else r := by
  refine List.map_congr_left fun r hr => ?_
  by_cases hk : key r = key r₀
  · rw [if_pos ((hp r hr).mpr hk), if_pos (beq_iff_eq.mpr hk), eq_of_key_eq hr h₀ hk, hg]
  · rw [if_neg (mt (hp r hr).mp hk), if_neg (mt beq_iff_eq.mp hk)]

theorem rows_rewrite_self {t : Table ρ} {r₀ : ρ} (h₀ : r₀ ∈ t) {g : ρ → ρ} (hg : g r₀ = r₀) :
    (t.rows.map fun r => if key r == key r₀ then g r else r) = t.rows := by
  refine (List.map_congr_left fun r hr => ?_).trans (List.map_id _)
  by_cases hk : key r = key r₀
  · rw [if_pos (beq_iff_eq.mpr hk), eq_of_key_eq hr h₀ hk, hg]
    rfl
  · rw [if_neg (mt beq_iff_eq.mp hk)]
    rfl

/-! ## Images of tables -/

section Map

variable {σ : Type} [Keyed σ]

/-- The images of the rows under a map that keeps keys. -/
def map (t : Table ρ) (g : ρ → σ)
    (hg : ∀ r, key (g r) = key r := by intro r; exact Eq.trans rfl rfl) : Table σ where
  rows := t.rows.map g
  ascending := by
    refine List.pairwise_map.mpr (t.ascending.imp ?_)
    intro a b hab
    rwa [hg, hg]

variable {t : Table ρ} {g : ρ → σ} {hg : ∀ r, key (g r) = key r}

@[simp] theorem mem_map {s : σ} : s ∈ t.map g hg ↔ ∃ r ∈ t, g r = s := by simp [mem_def, map]

@[simp] theorem find?_map (k : Int) : (t.map g hg).find? k = (t.find? k).map g := by
  simp only [find?, map, List.find?_map]
  congr 2
  funext r
  simp [hg]

@[simp] theorem keys_map : (t.map g hg).keys = t.keys := by
  simp only [keys, map, List.map_map]
  exact List.map_congr_left fun r _ => hg r

@[simp] theorem nextKey_map : (t.map g hg).nextKey = t.nextKey := by
  simp only [nextKey, map, List.getLast?_map]
  cases t.rows.getLast? with
  | none => rfl
  | some r => simp [hg]

theorem map_update_self {p : ρ → Bool} {f : ρ → ρ} {hkey} (hf : ∀ r, g (f r) = g r) :
    (t.update p f hkey).map g hg = t.map g hg := Table.ext (map_rows_update fun r _ => hf r)

theorem map_delete {p : ρ → Bool} {p' : σ → Bool} (hp : ∀ r, p' (g r) = p r) :
    (t.delete p).map g hg = (t.map g hg).delete p' := by
  refine Table.ext ?_
  simp only [map, delete, List.filter_map]
  congr 2
  funext r
  simp [hp]

end Map

end Table

end Lib
