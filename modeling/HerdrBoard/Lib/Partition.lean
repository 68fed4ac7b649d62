import Mathlib.Data.List.Sort
import Mathlib.Data.Prod.Lex
import Mathlib.Order.Lattice

/-!
# Partitions by a key and sorting by a key
-/

namespace Lib

variable {α κ : Type}

/-- The parts of a list at keys that cover it are the list. -/
theorem parts_perm [BEq κ] [LawfulBEq κ] {key : α → κ} {keys : List κ} {l : List α}
    (hkeys : keys.Nodup) (hcover : ∀ a ∈ l, key a ∈ keys) :
    (keys.flatMap fun k => l.filter fun a => key a == k).Perm l := by
  induction keys generalizing l with
  | nil =>
      cases l with
      | nil => exact .refl _
      | cons a l => exact absurd (hcover a (by simp)) (by simp)
  | cons k keys ih =>
      obtain ⟨hk, hkeys⟩ := List.nodup_cons.mp hkeys
      have hrest : ∀ a ∈ l.filter fun a => !(key a == k), key a ∈ keys := by
        intro a ha
        obtain ⟨ha, hne⟩ := List.mem_filter.mp ha
        rcases List.mem_cons.mp (hcover a ha) with rfl | hin
        · simp at hne
        · exact hin
      have hparts : (keys.flatMap fun k' => l.filter fun a => key a == k') =
          keys.flatMap fun k' => (l.filter fun a => !(key a == k)).filter fun a => key a == k' := by
        apply List.flatMap_congr
        intro k' hk'
        rw [List.filter_filter]
        apply List.filter_congr
        intro a _
        cases hak : key a == k' with
        | false => simp
        | true =>
            have hne : key a ≠ k := fun heq => hk (heq ▸ (beq_iff_eq.mp hak ▸ hk'))
            simp [hne]
      rw [List.flatMap_cons, hparts]
      exact ((ih hkeys hrest).append_left _).trans (List.filter_append_perm _ l)

variable [LinearOrder κ] {key : α → κ}

theorem pairwise_insertionSort_key (l : List α) :
    (l.insertionSort fun a b => key a ≤ key b).Pairwise fun a b => key a ≤ key b := by
  have : Std.Total fun a b : α => key a ≤ key b := ⟨fun a b => le_total (key a) (key b)⟩
  have : IsTrans α fun a b => key a ≤ key b := ⟨fun _ _ _ => le_trans⟩
  exact List.pairwise_insertionSort _ l

/-- Sorting by a key that tells the members apart forgets their order. -/
theorem insertionSort_eq_of_perm {l l' : List α} (hperm : l.Perm l')
    (hkey : ∀ a ∈ l, ∀ b ∈ l, key a = key b → a = b) :
    (l.insertionSort fun a b => key a ≤ key b) = l'.insertionSort fun a b => key a ≤ key b := by
  have hl := List.perm_insertionSort (fun a b => key a ≤ key b) l
  have hl' := List.perm_insertionSort (fun a b => key a ≤ key b) l'
  apply List.Perm.eq_of_pairwise _ (pairwise_insertionSort_key l) (pairwise_insertionSort_key l')
    (hl.trans (hperm.trans hl'.symm))
  intro a b ha hb hab hba
  exact hkey a (hl.mem_iff.mp ha) b (hperm.mem_iff.mpr (hl'.mem_iff.mp hb)) (le_antisymm hab hba)

end Lib
