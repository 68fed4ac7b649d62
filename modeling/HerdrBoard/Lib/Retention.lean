import HerdrBoard.Lib.Table
import Mathlib.Data.List.DropRight

/-!
# Keeping the newest rows

A table in which each kind of rows keeps only its newest ones.
-/

namespace Lib

open Keyed (key)

/-- Of the elements of a list with different images, those with the images of its end
are the end. -/
theorem filter_rtake {α β : Type} [BEq β] [LawfulBEq β] {f : α → β} {l : List α}
    (hnodup : (l.map f).Nodup) (n : Nat) :
    (l.filter fun a => ((l.rtake n).map f).contains (f a)) = l.rtake n := by
  have hsplit : l.rdrop n ++ l.rtake n = l := List.take_append_drop _ _
  have hdisjoint : ∀ a ∈ l.rdrop n, ((l.rtake n).map f).contains (f a) = false := by
    intro a ha
    rw [← hsplit, List.map_append, List.nodup_append] at hnodup
    simp only [List.contains_eq_mem, decide_eq_false_iff_not]
    exact fun hmem => hnodup.2.2 (f a) (List.mem_map_of_mem ha) (f a) hmem rfl
  have hall : ∀ a ∈ l.rtake n, ((l.rtake n).map f).contains (f a) = true := by
    intro a ha
    simpa using ⟨a, ha, rfl⟩
  conv_lhs => rw [← hsplit, List.filter_append, hsplit]
  rw [List.filter_eq_nil_iff.mpr fun a ha => Bool.eq_false_iff.mp (hdisjoint a ha), List.nil_append,
    List.filter_eq_self.mpr hall]

section Rtake

variable {α : Type} {l : List α} {a : α} {n : Nat}

theorem mem_rtake_concat (hn : 0 < n) : a ∈ (l ++ [a]).rtake n := by
  obtain ⟨m, rfl⟩ := Nat.exists_eq_succ_of_ne_zero hn.ne'
  simp [List.rtake_concat_succ]

/-- What has been cut off before does not come back. -/
theorem rtake_rtake_concat : (l.rtake n ++ [a]).rtake n = (l ++ [a]).rtake n := by
  cases n with
  | zero => simp
  | succ m =>
      rw [List.rtake_concat_succ, List.rtake_concat_succ]
      simp [List.rtake_eq_reverse_take_reverse, List.take_take]

end Rtake

namespace Table

variable {ρ : Type} [Keyed ρ] {t : Table ρ} {p q : ρ → Bool} {n : Nat}

theorem select_insert {row : Int → ρ} {hkey} :
    (t.insert row hkey).select p = t.select p ++ if p (row t.nextKey) then [row t.nextKey]
      else [] := by
  simp [select, insert, List.filter_append, List.filter_singleton]

/-- Delete the rows of a kind that are not among its newest `n`. -/
def keepNewest (t : Table ρ) (p : ρ → Bool) (n : Nat) : Table ρ :=
  let kept := ((t.select p).reverse.take n).map key
  t.delete fun r => p r && !kept.contains (key r)

theorem select_keepNewest : (t.keepNewest p n).select p = (t.select p).rtake n := by
  have hnodup : ((t.select p).map key).Nodup := t.nodup_keys.sublist (List.filter_sublist.map key)
  refine Eq.trans ?_ (filter_rtake hnodup n)
  rw [List.rtake_eq_reverse_take_reverse]
  simp only [keepNewest, delete, select, List.filter_filter, List.map_reverse,
    List.contains_reverse]
  refine List.filter_congr fun r _ => ?_
  cases p r <;> simp

/-- Rows of other kinds stay. -/
theorem select_keepNewest_of_disjoint (h : ∀ r, q r = true → p r = false) :
    (t.keepNewest p n).select q = t.select q := by
  simp only [keepNewest, delete, select, List.filter_filter]
  refine List.filter_congr fun r _ => ?_
  cases hq : q r with
  | false => rfl
  | true => simp [h r hq]

theorem nextKey_of_last {r : ρ} (hr : r ∈ t) (hlast : ∀ s ∈ t, key s ≤ key r) :
    t.nextKey = key r + 1 := by
  have hlt := lt_nextKey hr
  cases hend : t.rows.getLast? with
  | none => simp [mem_def, List.getLast?_eq_none_iff.mp hend] at hr
  | some s =>
      have hnext : t.nextKey = key s + 1 := by simp [nextKey, hend]
      have hle := hlast s (List.mem_of_getLast? hend)
      omega

/-- The newest row of the table stays, so the next key does not go back. -/
theorem nextKey_keepNewest_insert {row : Int → ρ} {hkey} (hn : 0 < n)
    (hp : p (row t.nextKey) = true) :
    ((t.insert row hkey).keepNewest p n).nextKey = t.nextKey + 1 := by
  have hmem : row t.nextKey ∈ ((t.insert row hkey).keepNewest p n).select p := by
    rw [select_keepNewest, select_insert, if_pos hp]
    exact mem_rtake_concat hn
  have hnext := nextKey_of_last (mem_select.mp hmem).1 fun r hr => by
    rcases mem_insert.mp (mem_delete.mp hr).1 with hr | rfl
    · exact hkey _ ▸ (lt_nextKey hr).le
    · exact le_refl _
  rwa [hkey] at hnext

end Table

end Lib
