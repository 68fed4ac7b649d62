import Mathlib.Data.List.SplitBy
import Mathlib.Tactic.Common

/-!
# The last members of the runs of a list

A list falls into its maximal runs of adjacent related members, of which only the last one of
each is kept. -/

namespace Lib

variable {α : Type} {r : α → α → Bool}

/-- The last member of each maximal run of members that `r` relates to the next. -/
def lastOfRuns (r : α → α → Bool) (l : List α) : List α := (l.splitBy r).filterMap List.getLast?

@[simp] theorem lastOfRuns_nil : lastOfRuns r [] = [] := by simp [lastOfRuns]

/-- A member that the last one is not related to starts a run. -/
theorem lastOfRuns_concat_of_new {l : List α} {a : α} (h : ∀ x ∈ l.getLast?, r x a = false) :
    lastOfRuns r (l ++ [a]) = lastOfRuns r l ++ [a] := by
  rw [lastOfRuns, List.splitBy_append_cons [] h, List.filterMap_append]
  simp [lastOfRuns, List.splitBy, List.splitBy.loop]

/-- The last run of a list grows by a member that its last one is related to. -/
theorem splitBy_concat_of_related {l init : List α} {runs : List (List α)} {x a : α}
    (hsplit : l.splitBy r = runs ++ [init ++ [x]]) (h : r x a = true) :
    (l ++ [a]).splitBy r = runs ++ [init ++ [x] ++ [a]] := by
  obtain ⟨hl, hnil, hruns, hbreaks⟩ := List.splitBy_eq_iff.mp hsplit
  refine List.splitBy_eq_iff.mpr ⟨?_, ?_, ?_, ?_⟩
  · simp [hl]
  · simpa using hnil
  · intro m hm
    rcases List.mem_append.mp hm with hm | hm
    · exact hruns m (List.mem_append_left _ hm)
    · have hlast := hruns (init ++ [x]) (List.mem_append_right _ (List.mem_singleton_self _))
      rw [List.mem_singleton.mp hm]
      refine List.isChain_append.mpr ⟨hlast, List.isChain_singleton _, ?_⟩
      simpa using h
  · obtain ⟨hinit, -, hjoin⟩ := List.isChain_append.mp hbreaks
    refine List.isChain_append.mpr ⟨hinit, List.isChain_singleton _, ?_⟩
    intro m hm last hlast
    obtain ⟨hne, hne', hbreak⟩ := hjoin m hm (init ++ [x]) (by simp)
    obtain rfl : last = init ++ [x] ++ [a] := by simpa using hlast.symm
    refine ⟨hne, by simp, ?_⟩
    rw [List.head_append_of_ne_nil hne']
    exact hbreak

theorem exists_last_run {l : List α} {x : α} (hx : x ∈ l.getLast?) :
    ∃ runs init, l.splitBy r = runs ++ [init ++ [x]] := by
  have hne : l ≠ [] := by
    rintro rfl
    cases hx
  have hsplit : l.splitBy r ≠ [] := List.splitBy_ne_nil.mpr hne
  have hlast := List.getLast_getLast_splitBy r hne
  have hmem : (l.splitBy r).getLast hsplit ≠ [] :=
    List.ne_nil_of_mem_splitBy (List.getLast_mem hsplit)
  refine ⟨(l.splitBy r).dropLast, ((l.splitBy r).getLast hsplit).dropLast, ?_⟩
  have hlastx : ((l.splitBy r).getLast hsplit).getLast hmem = x := by
    rw [hlast]
    exact Option.some.inj ((List.getLast?_eq_some_getLast hne).symm.trans hx)
  rw [← hlastx, List.dropLast_append_getLast, List.dropLast_append_getLast]

/-- A member that the last one is related to takes its place. -/
theorem lastOfRuns_concat_of_related {l : List α} {x a : α} (hx : x ∈ l.getLast?)
    (h : r x a = true) : lastOfRuns r (l ++ [a]) = (lastOfRuns r l).dropLast ++ [a] := by
  obtain ⟨runs, init, hsplit⟩ := exists_last_run (r := r) hx
  rw [lastOfRuns, lastOfRuns, splitBy_concat_of_related hsplit h, hsplit]
  simp

/-- Members that are related to nothing are all kept. -/
theorem filter_lastOfRuns {p : α → Bool} (hp : ∀ x y, r x y = true → p x = false) (l : List α) :
    (lastOfRuns r l).filter p = l.filter p := by
  induction l using List.reverseRecOn with
  | nil => simp
  | append_singleton l a ih =>
      by_cases h : ∃ x ∈ l.getLast?, r x a = true
      · obtain ⟨x, hx, hxa⟩ := h
        obtain ⟨runs, init, hsplit⟩ := exists_last_run (r := r) hx
        have hkept : lastOfRuns r l = (lastOfRuns r l).dropLast ++ [x] := by
          simp [lastOfRuns, hsplit]
        rw [lastOfRuns_concat_of_related hx hxa, List.filter_append, List.filter_append, ← ih]
        nth_rewrite 2 [hkept]
        simp [List.filter_append, hp x a hxa]
      · have hnew : ∀ x ∈ l.getLast?, r x a = false := by
          intro x hx
          by_contra hxa
          exact h ⟨x, hx, Bool.not_eq_false _ ▸ hxa⟩
        rw [lastOfRuns_concat_of_new hnew, List.filter_append, List.filter_append, ih]

end Lib
