import Mathlib.Data.List.Nodup
import Mathlib.Order.Lattice
import Mathlib.Tactic.Common

/-!
# Ledgers of named rows

A ledger lists its rows by ascending name, as a table does whose primary key is a column of the row
itself. A row is put in its place, or takes the place of the row of its name. -/

namespace Lib

/-- Rows of `ρ` have a natural key. -/
class Named (ρ : Type) (κ : outParam Type) where
  name : ρ → κ

open Named (name)

/-- Rows in ascending name order. -/
@[ext] structure Ledger (ρ : Type) {κ : Type} [LinearOrder κ] [Named ρ κ] where
  rows : List ρ
  ascending : rows.Pairwise fun a b => name a < name b

variable {ρ κ : Type} [LinearOrder κ] [Named ρ κ]

/-- Put a row in its place, or in the place of the row of its name. -/
def putRow (r : ρ) : List ρ → List ρ
  | [] => [r]
  | a :: rows =>
      if name r < name a then r :: a :: rows
      else if name r = name a then r :: rows
      else a :: putRow r rows

theorem mem_putRow {r x : ρ} {rows : List ρ} (h : rows.Pairwise fun a b => name a < name b) :
    x ∈ putRow r rows ↔ x = r ∨ (x ∈ rows ∧ name x ≠ name r) := by
  induction rows with
  | nil => simp [putRow]
  | cons a rows ih =>
      obtain ⟨ha, hrows⟩ := List.pairwise_cons.mp h
      have hlater : ∀ y ∈ rows, name y ≠ name a := fun y hy heq => (ha y hy).ne heq.symm
      by_cases hlt : name r < name a
      · have hother : ∀ y ∈ a :: rows, name y ≠ name r := by
          intro y hy heq
          rcases List.mem_cons.mp hy with rfl | hy
          · exact hlt.ne heq.symm
          · exact (hlt.trans (ha y hy)).ne heq.symm
        simp only [putRow, hlt, if_true, List.mem_cons]
        constructor
        · rintro (rfl | hx)
          · exact .inl rfl
          · exact .inr ⟨hx, hother x (List.mem_cons.mpr hx)⟩
        · rintro (rfl | ⟨hx, -⟩)
          · exact .inl rfl
          · exact .inr hx
      · by_cases heq : name r = name a
        · rw [putRow, if_neg hlt, if_pos heq, heq, List.mem_cons, List.mem_cons]
          constructor
          · rintro (rfl | hx)
            · exact .inl rfl
            · exact .inr ⟨.inr hx, hlater x hx⟩
          · rintro (rfl | ⟨rfl | hx, hne⟩)
            · exact .inl rfl
            · exact absurd rfl hne
            · exact .inr hx
        · simp only [putRow, hlt, heq, if_false, List.mem_cons, ih hrows]
          constructor
          · rintro (rfl | rfl | ⟨hx, hne⟩)
            · exact .inr ⟨.inl rfl, fun h => heq h.symm⟩
            · exact .inl rfl
            · exact .inr ⟨.inr hx, hne⟩
          · rintro (rfl | ⟨rfl | hx, hne⟩)
            · exact .inr (.inl rfl)
            · exact .inl rfl
            · exact .inr (.inr ⟨hx, hne⟩)

theorem pairwise_putRow {r : ρ} {rows : List ρ} (h : rows.Pairwise fun a b => name a < name b) :
    (putRow r rows).Pairwise fun a b => name a < name b := by
  induction rows with
  | nil => exact List.pairwise_singleton _ _
  | cons a rows ih =>
      obtain ⟨ha, hrows⟩ := List.pairwise_cons.mp h
      by_cases hlt : name r < name a
      · simp only [putRow, hlt, if_true]
        refine List.pairwise_cons.mpr ⟨fun y hy => ?_, h⟩
        rcases List.mem_cons.mp hy with rfl | hy
        · exact hlt
        · exact hlt.trans (ha y hy)
      · by_cases heq : name r = name a
        · rw [putRow, if_neg hlt, if_pos heq]
          exact List.pairwise_cons.mpr ⟨fun y hy => heq ▸ ha y hy, hrows⟩
        · simp only [putRow, hlt, heq, if_false]
          refine List.pairwise_cons.mpr ⟨fun y hy => ?_, ih hrows⟩
          rcases (mem_putRow hrows).mp hy with rfl | ⟨hy, -⟩
          · exact lt_of_le_of_ne (not_lt.mp hlt) fun h => heq h.symm
          · exact ha y hy

namespace Ledger

variable {t : Ledger ρ} {r x : ρ} {k : κ}

instance : Membership ρ (Ledger ρ) := ⟨fun t r => r ∈ t.rows⟩

instance [DecidableEq ρ] : DecidableEq (Ledger ρ) := fun s t =>
  decidable_of_iff (s.rows = t.rows) ⟨Ledger.ext, congrArg rows⟩

theorem mem_def : r ∈ t ↔ r ∈ t.rows := Iff.rfl

/-! ## Operations -/

def empty : Ledger ρ := ⟨[], List.Pairwise.nil⟩

/-- The row of the name. -/
def find? (t : Ledger ρ) (k : κ) : Option ρ := t.rows.find? fun r => decide (name r = k)

def upsert (t : Ledger ρ) (r : ρ) : Ledger ρ := ⟨putRow r t.rows, pairwise_putRow t.ascending⟩

/-- Remove the row of the name. -/
def delete (t : Ledger ρ) (k : κ) : Ledger ρ :=
  ⟨t.rows.filter fun r => decide (name r ≠ k), t.ascending.filter _⟩

/-! ## Rows -/

@[simp] theorem mem_empty : r ∈ (empty : Ledger ρ) ↔ False := by simp [mem_def, empty]

theorem mem_upsert : x ∈ t.upsert r ↔ x = r ∨ (x ∈ t ∧ name x ≠ name r) := mem_putRow t.ascending

theorem mem_upsert_self : r ∈ t.upsert r := mem_upsert.mpr (.inl rfl)

@[simp] theorem mem_delete : x ∈ t.delete k ↔ x ∈ t ∧ name x ≠ k := by simp [mem_def, delete]

/-- A name names at most one row. -/
theorem eq_of_name_eq (hr : r ∈ t) (hx : x ∈ t) (h : name r = name x) : r = x := by
  have hnodup := (List.pairwise_map (f := name)).mpr (t.ascending.imp fun h => h.ne)
  exact List.inj_on_of_nodup_map hnodup hr hx h

theorem find?_eq_some : t.find? k = some r ↔ r ∈ t ∧ name r = k := by
  constructor
  · intro h
    have hname := List.find?_some h
    exact ⟨List.mem_of_find?_eq_some h, by simpa using hname⟩
  · rintro ⟨hr, rfl⟩
    cases h : t.rows.find? fun x => decide (name x = name r) with
    | none =>
        have := List.find?_eq_none.mp h r hr
        simp at this
    | some x =>
        have hname := List.find?_some h
        have heq : x = r := eq_of_name_eq (List.mem_of_find?_eq_some h) hr (by simpa using hname)
        exact heq ▸ h

theorem find?_eq_none : t.find? k = none ↔ ∀ r ∈ t, name r ≠ k := by
  simp [find?, List.find?_eq_none, mem_def]

/-- The first row of a kind is the one of the least name. -/
theorem find?_first {p : ρ → Bool} :
    t.rows.find? p = some r ↔ r ∈ t ∧ p r = true ∧ ∀ x ∈ t, p x = true → name r ≤ name x := by
  constructor
  · intro h
    obtain ⟨hp, before, after, hrows, hbefore⟩ := List.find?_eq_some_iff_append.mp h
    refine ⟨List.mem_of_find?_eq_some h, hp, ?_⟩
    intro x hx hpx
    have hasc := t.ascending
    rw [hrows, List.pairwise_append] at hasc
    rw [mem_def, hrows, List.mem_append, List.mem_cons] at hx
    rcases hx with hx | rfl | hx
    · have := hbefore x hx
      simp [hpx] at this
    · exact le_refl _
    · exact ((List.pairwise_cons.mp hasc.2.1).1 x hx).le
  · rintro ⟨hr, hp, hleast⟩
    cases h : t.rows.find? p with
    | none => exact absurd hp (List.find?_eq_none.mp h r hr)
    | some x =>
        obtain ⟨hpx, before, after, hrows, hbefore⟩ := List.find?_eq_some_iff_append.mp h
        have hx : x ∈ t := List.mem_of_find?_eq_some h
        have hle := hleast x hx hpx
        have hasc := t.ascending
        rw [hrows, List.pairwise_append] at hasc
        rw [mem_def, hrows, List.mem_append, List.mem_cons] at hr
        rcases hr with hr | rfl | hr
        · have := hbefore r hr
          simp [hp] at this
        · rfl
        · exact absurd hle (not_le.mpr ((List.pairwise_cons.mp hasc.2.1).1 r hr))

end Ledger

end Lib
