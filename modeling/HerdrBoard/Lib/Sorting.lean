import Mathlib.Data.List.Sort

/-!
# Sorting part of a list
-/

namespace Lib

variable {α : Type} {r : α → α → Prop} [DecidableRel r]

theorem orderedInsert_of_forall {a : α} {l : List α} (h : ∀ b ∈ l, r a b) :
    l.orderedInsert r a = a :: l := by
  cases l with
  | nil => rfl
  | cons b l => exact List.orderedInsert_cons_of_le r l (h b (by simp))

variable [IsTrans α r]

theorem filter_orderedInsert {l : List α} (p : α → Bool) (a : α) (hl : l.Pairwise r) :
    (l.orderedInsert r a).filter p = if p a then (l.filter p).orderedInsert r a
      else l.filter p := by
  induction l with
  | nil =>
      cases hp : p a <;> simp [hp]
  | cons b l ih =>
      obtain ⟨hb, hl⟩ := List.pairwise_cons.mp hl
      by_cases hab : r a b
      · rw [List.orderedInsert_cons_of_le r l hab]
        cases hp : p a with
        | false => simp [hp]
        | true =>
            have hall : ∀ c ∈ (b :: l).filter p, r a c := by
              intro c hc
              rcases List.mem_cons.mp (List.mem_of_mem_filter hc) with rfl | hc
              · exact hab
              · exact trans_of r hab (hb c hc)
            rw [if_pos rfl, orderedInsert_of_forall hall, List.filter_cons_of_pos hp]
      · rw [List.orderedInsert_of_not_le r l hab]
        cases hpb : p b with
        | false => simp [hpb, ih hl]
        | true =>
            cases hp : p a with
            | false => simp [hpb, hp, ih hl]
            | true => simp [hpb, hp, ih hl, List.orderedInsert_of_not_le r _ hab]

theorem filter_insertionSort [Std.Total r] (p : α → Bool) (l : List α) :
    (l.insertionSort r).filter p = (l.filter p).insertionSort r := by
  induction l with
  | nil => rfl
  | cons a l ih =>
      rw [List.insertionSort_cons, filter_orderedInsert p a (List.pairwise_insertionSort r l), ih]
      cases hp : p a <;> simp [hp]

/-- An insertion before elements that may follow, and after those that must precede. -/
theorem pairwise_orderedInsert [Std.Total r] {s : α → α → Prop} {a : α} {l : List α}
    (hl : l.Pairwise fun a b => r a b ∧ (r b a → s a b)) (ha : ∀ b ∈ l, s a b) :
    (l.orderedInsert r a).Pairwise fun a b => r a b ∧ (r b a → s a b) := by
  induction l with
  | nil => exact List.pairwise_singleton _ a
  | cons b l ih =>
      obtain ⟨hb, htail⟩ := List.pairwise_cons.mp hl
      by_cases hab : r a b
      · rw [List.orderedInsert_cons_of_le r l hab]
        refine List.pairwise_cons.mpr ⟨fun c hc => ⟨?_, fun _ => ha c hc⟩, hl⟩
        rcases List.mem_cons.mp hc with rfl | hc
        · exact hab
        · exact trans_of r hab (hb c hc).1
      · rw [List.orderedInsert_of_not_le r l hab]
        refine List.pairwise_cons.mpr
          ⟨fun c hc => ?_, ih htail fun c hc => ha c (List.mem_cons_of_mem _ hc)⟩
        rcases List.mem_cons.mp ((List.perm_orderedInsert r a l).mem_iff.mp hc) with rfl | hc
        · exact ⟨(Std.Total.total b c).resolve_right hab, fun h => absurd h hab⟩
        · exact hb c hc

/-- Sorting is stable. -/
theorem pairwise_insertionSort_stable [Std.Total r] {s : α → α → Prop} {l : List α}
    (hl : l.Pairwise s) : (l.insertionSort r).Pairwise fun a b => r a b ∧ (r b a → s a b) := by
  induction l with
  | nil => exact List.Pairwise.nil
  | cons a l ih =>
      obtain ⟨ha, htail⟩ := List.pairwise_cons.mp hl
      exact pairwise_orderedInsert (ih htail) fun b hb =>
        ha b ((List.perm_insertionSort r l).mem_iff.mp hb)

/-- Two lists with the same members, both ascending by a key, are one list. -/
theorem eq_of_ascending {κ : Type} [Preorder κ] {key : α → κ} {l l' : List α}
    (hl : l.Pairwise fun a b => key a < key b) (hl' : l'.Pairwise fun a b => key a < key b)
    (hmem : ∀ a, a ∈ l ↔ a ∈ l') : l = l' := by
  have hperm : l.Perm l' := by
    apply (List.perm_ext_iff_of_nodup _ _).mpr hmem
    · exact hl.imp fun h heq => (heq ▸ h).ne rfl
    · exact hl'.imp fun h heq => (heq ▸ h).ne rfl
  apply List.Perm.eq_of_pairwise _ hl hl' hperm
  intro a b _ _ hab hba
  exact absurd hba hab.asymm

end Lib
