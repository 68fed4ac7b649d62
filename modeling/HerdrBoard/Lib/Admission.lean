import Mathlib.Data.List.Nodup
import Mathlib.Data.List.Pairwise

/-!
# Greedy admission

A queue whose elements have keys is admitted in order, as long as there is room, one element a key.
-/

namespace Lib

variable {α κ : Type} [DecidableEq κ] (key : α → κ)

/-- Admit from the front whatever has a free key, until there is no room. -/
def takeFree : Nat → List κ → List α → List α
  | _, _, [] => []
  | 0, _, _ :: _ => []
  | room + 1, busy, a :: queue =>
      if key a ∈ busy then takeFree (room + 1) busy queue
        else a :: takeFree room (key a :: busy) queue

variable {key} {room : Nat} {busy : List κ} {queue : List α} {a : α}

theorem takeFree_zero (busy : List κ) (queue : List α) : takeFree key 0 busy queue = [] := by
  cases queue <;> rfl

theorem takeFree_of_busy (h : key a ∈ busy) :
    takeFree key room busy (a :: queue) = takeFree key room busy queue := by
  cases room with
  | zero => rw [takeFree_zero, takeFree_zero]
  | succ room => rw [takeFree, if_pos h]

theorem takeFree_of_free (h : key a ∉ busy) :
    takeFree key (room + 1) busy (a :: queue) = a :: takeFree key room (key a :: busy) queue := by
  rw [takeFree, if_neg h]

/-- The admitted elements stand in the order of the queue. -/
theorem takeFree_sublist (room : Nat) (busy : List κ) (queue : List α) :
    (takeFree key room busy queue).Sublist queue := by
  induction queue generalizing room busy with
  | nil => exact .slnil
  | cons a queue ih =>
      by_cases hbusy : key a ∈ busy
      · rw [takeFree_of_busy hbusy]
        exact (ih room busy).cons a
      · cases room with
        | zero =>
            rw [takeFree_zero]
            exact List.nil_sublist _
        | succ room =>
            rw [takeFree_of_free hbusy]
            exact (ih room _).cons_cons a

theorem length_takeFree_le (room : Nat) (busy : List κ) (queue : List α) :
    (takeFree key room busy queue).length ≤ room := by
  induction queue generalizing room busy with
  | nil => exact Nat.zero_le room
  | cons a queue ih =>
      by_cases hbusy : key a ∈ busy
      · rw [takeFree_of_busy hbusy]
        exact ih room busy
      · cases room with
        | zero => rw [takeFree_zero]; exact Nat.le_refl 0
        | succ room =>
            rw [takeFree_of_free hbusy]
            exact Nat.succ_le_succ (ih room _)

/-- No admitted element has a key that was busy before. -/
theorem key_takeFree (h : a ∈ takeFree key room busy queue) : key a ∉ busy := by
  induction queue generalizing room busy with
  | nil => cases h
  | cons b queue ih =>
      by_cases hbusy : key b ∈ busy
      · rw [takeFree_of_busy hbusy] at h
        exact ih h
      · cases room with
        | zero => rw [takeFree_zero] at h; cases h
        | succ room =>
            rw [takeFree_of_free hbusy] at h
            rcases List.mem_cons.mp h with rfl | h
            · exact hbusy
            · exact fun hmem => ih h (List.mem_cons_of_mem _ hmem)

/-- No two admitted elements share a key. -/
theorem nodup_keys_takeFree (room : Nat) (busy : List κ) (queue : List α) :
    ((takeFree key room busy queue).map key).Nodup := by
  induction queue generalizing room busy with
  | nil => exact List.nodup_nil
  | cons a queue ih =>
      by_cases hbusy : key a ∈ busy
      · rw [takeFree_of_busy hbusy]
        exact ih room busy
      · cases room with
        | zero => rw [takeFree_zero]; exact List.nodup_nil
        | succ room =>
            rw [takeFree_of_free hbusy, List.map_cons, List.nodup_cons]
            refine ⟨fun hmem => ?_, ih room _⟩
            obtain ⟨b, hb, hkey⟩ := List.mem_map.mp hmem
            exact key_takeFree hb (hkey ▸ List.mem_cons_self)

/-- Whatever is left behind finds no room, or its key busy. -/
theorem takeFree_maximal (h : a ∈ queue) :
    room ≤ (takeFree key room busy queue).length ∨ key a ∈ busy ∨
    ∃ b ∈ takeFree key room busy queue, key b = key a := by
  induction queue generalizing room busy with
  | nil => cases h
  | cons b queue ih =>
      by_cases hbusy : key b ∈ busy
      · rw [takeFree_of_busy hbusy]
        rcases List.mem_cons.mp h with rfl | h
        · exact .inr (.inl hbusy)
        · exact ih h
      · cases room with
        | zero => exact .inl (Nat.zero_le _)
        | succ room =>
            rw [takeFree_of_free hbusy, List.length_cons]
            rcases List.mem_cons.mp h with rfl | h
            · exact .inr (.inr ⟨a, List.mem_cons_self, rfl⟩)
            · rcases @ih room (key b :: busy) h with hfull | hkey | ⟨c, hc, hkey⟩
              · exact .inl (Nat.succ_le_succ hfull)
              · rcases List.mem_cons.mp hkey with hkey | hkey
                · exact .inr (.inr ⟨b, List.mem_cons_self, hkey.symm⟩)
                · exact .inr (.inl hkey)
              · exact .inr (.inr ⟨c, List.mem_cons_of_mem b hc, hkey⟩)

/-- An admitted element is the first of its key in the queue. -/
theorem takeFree_first {R : α → α → Prop} (hqueue : queue.Pairwise R)
    (h : a ∈ takeFree key room busy queue) {b : α}
    (hb : b ∈ queue) (hkey : key b = key a) : b = a ∨ R a b := by
  induction queue generalizing room busy with
  | nil => cases h
  | cons c queue ih =>
      obtain ⟨hc, htail⟩ := List.pairwise_cons.mp hqueue
      by_cases hbusy : key c ∈ busy
      · have hbq : b ∈ queue := by
          rcases List.mem_cons.mp hb with rfl | hb
          · exact absurd (hkey ▸ hbusy) (key_takeFree h)
          · exact hb
        rw [takeFree_of_busy hbusy] at h
        exact ih htail h hbq
      · cases room with
        | zero => rw [takeFree_zero] at h; cases h
        | succ room =>
            rw [takeFree_of_free hbusy] at h
            rcases List.mem_cons.mp h with rfl | h
            · exact (List.mem_cons.mp hb).imp_right fun hb => hc b hb
            · rcases List.mem_cons.mp hb with rfl | hb
              · exact absurd (hkey ▸ List.mem_cons_self) (key_takeFree h)
              · exact ih htail h hb

end Lib
