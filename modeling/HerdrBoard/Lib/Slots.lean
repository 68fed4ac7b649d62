import HerdrBoard.Lib.Table

/-!
# Slots

Tables whose rows each stand in a slot, at most one row in a slot.
-/

namespace Lib

open Keyed (key)

variable {ρ κ : Type} [Keyed ρ] {slot : ρ → κ} {k : κ} {t t' : Table ρ}
    {before : List ρ} {after : ρ}

/-- No two rows stand in one slot. -/
def OnePerSlot (slot : ρ → κ) (t : Table ρ) : Prop := ∀ a ∈ t, ∀ b ∈ t, slot a = slot b → a = b

theorem onePerSlot_empty :
    OnePerSlot slot (Table.empty : Table ρ) := fun _ ha => (Table.mem_empty.mp ha).elim

theorem OnePerSlot.fewer (h : OnePerSlot slot t) (hfewer : ∀ r ∈ t', r ∈ t) : OnePerSlot slot t' :=
  fun a ha b hb => h a (hfewer a ha) b (hfewer b hb)

/-- The rows of one slot have made way for one row; the rows of the other slots are left. -/
structure Replaced (slot : ρ → κ) (k : κ) (before : List ρ) (after : ρ) (t t' : Table ρ) :
    Prop where
  removed : ∀ r, r ∈ before ↔ r ∈ t ∧ slot r = k
  added : slot after = k
  rows : ∀ r, r ∈ t' ↔ r = after ∨ (r ∈ t ∧ slot r ≠ k)

theorem OnePerSlot.replaced (h : OnePerSlot slot t)
    (hreplaced : Replaced slot k before after t t') : OnePerSlot slot t' := by
  intro a ha b hb heq
  rcases (hreplaced.rows a).mp ha with rfl | ⟨ha, hka⟩
  · rcases (hreplaced.rows b).mp hb with rfl | ⟨hb, hkb⟩
    · rfl
    · exact absurd (heq.symm.trans hreplaced.added) hkb
  · rcases (hreplaced.rows b).mp hb with rfl | ⟨hb, hkb⟩
    · exact absurd (heq.trans hreplaced.added) hka
    · exact h a ha b hb heq

/-- Rows are told apart by their keys. -/
theorem mem_without (hbefore : ∀ r ∈ before, r ∈ t) (r : ρ) :
    (r ∈ t ∧ ∀ b ∈ before, key r ≠ key b) ↔ r ∈ t ∧ r ∉ before := by
  refine and_congr_right fun hr => ⟨fun h hmem => h r hmem rfl, fun h b hb heq => h ?_⟩
  rwa [Table.eq_of_key_eq hr (hbefore b hb) heq]

/-- The rows of the slot are removed by their keys, then the new row is added. -/
theorem Replaced.of_removed {mid : Table ρ} (hbefore : ∀ r, r ∈ before ↔ r ∈ t ∧ slot r = k)
    (hmid : ∀ r, r ∈ mid ↔ r ∈ t ∧ ∀ b ∈ before, key r ≠ key b) (hafter : slot after = k)
    (hrows : ∀ r, r ∈ t' ↔ r ∈ mid ∨ r = after) : Replaced slot k before after t t' := by
  refine ⟨hbefore, hafter, fun r => ?_⟩
  have hkept : r ∈ mid ↔ r ∈ t ∧ slot r ≠ k := by
    rw [hmid, mem_without fun b hb => ((hbefore b).mp hb).1]
    exact and_congr_right fun hr => not_congr ((hbefore r).trans (and_iff_right hr))
  rw [hrows, hkept, or_comm]

end Lib
