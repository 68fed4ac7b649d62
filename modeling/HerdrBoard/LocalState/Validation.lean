import HerdrBoard.LocalState.Grouping
import Mathlib.Data.List.Nodup

/-!
# What a valid config is

Validation reports where a fault is found; whether there is one depends on the mappings and the
space names only. -/

open HerdrBoard.Core

namespace HerdrBoard.LocalState

section

variable {ε β : Type}

theorem check_then {x : Except ε Unit} {f : Unit → Except ε β} {b : β} :
    (x >>= f) = .ok b ↔ x = .ok () ∧ f () = .ok b := by
  cases x with
  | error e => simp [bind, Except.bind]
  | ok a => simp [bind, Except.bind]

end

/-! ## Mappings -/

theorem checkKind_accepts (kind place place' : String) :
    checkKind kind place = .ok () ↔ checkKind kind place' = .ok () := by
  unfold checkKind
  split
  · simp
  · split
    · split <;> simp
    · simp

theorem checkLevels_accepts (whose whose' : String) (levels : List (String × String))
    (seen : List (String × String)) :
    checkLevels whose seen levels = .ok () ↔ checkLevels whose' seen levels = .ok () := by
  induction levels generalizing seen with
  | nil => simp [checkLevels]
  | cons head levels ih =>
      obtain ⟨level, kind⟩ := head
      unfold checkLevels
      split
      · simp
      · simp only [check_then]
        cases seen.lookup kind with
        | none => exact and_congr (checkKind_accepts kind _ _) (ih _)
        | some first => simp

theorem checkFilterValue_accepts (key : String) (item : Value) (place place' : String) :
    checkFilterValue key item place = .ok () ↔ checkFilterValue key item place' = .ok () := by
  unfold checkFilterValue
  split
  · cases item.asU64 with
    | none => simp
    | some n => by_cases hn : n ≤ 4 <;> simp [hn]
  · cases item.asStr with
    | none => simp
    | some text =>
        dsimp only
        split
        · simp
        · split
          · split <;> simp
          · simp

theorem checkFilterValues_accepts (key place place' : String) (items : List Value) :
    checkFilterValues key place items = .ok () ↔ checkFilterValues key place' items = .ok () := by
  induction items with
  | nil => simp [checkFilterValues]
  | cons item items ih =>
      simp only [checkFilterValues, check_then, ih, checkFilterValue_accepts key item place place']

theorem checkFilterFields_accepts (whose whose' : String) (fields : List (String × Value)) :
    checkFilterFields whose fields = .ok () ↔ checkFilterFields whose' fields = .ok () := by
  induction fields with
  | nil => simp [checkFilterFields]
  | cons field fields ih =>
      obtain ⟨key, value⟩ := field
      unfold checkFilterFields
      split
      · simp
      · simp only
        split
        · simp [check_then]
        · simp only [check_then]
          exact and_congr (checkFilterValues_accepts key _ _ _) ih
        · simp only [check_then]
          exact and_congr (checkFilterValues_accepts key _ _ _) ih

theorem checkFilter_accepts (filter : List (String × Value)) (whose whose' : String) :
    checkFilter filter whose = .ok () ↔ checkFilter filter whose' = .ok () := by
  unfold checkFilter
  split
  · simp
  · exact checkFilterFields_accepts whose whose' filter

/-- Levels and filter pass their checks. -/
def GroupingMapping.Accepted (m : GroupingMapping) : Prop := m.validateAs "" = .ok ()

theorem GroupingMapping.validateAs_accepts (m : GroupingMapping) (whose : String) :
    m.validateAs whose = .ok () ↔ m.Accepted := by
  unfold GroupingMapping.Accepted GroupingMapping.validateAs
  split
  · simp
  · simp only [check_then]
    exact and_congr (checkLevels_accepts whose "" m.levels []) (checkFilter_accepts m.filter _ _)

/-! ## Configs -/

theorem validateSpaceName_accepts {space : String} :
    validateSpaceName space = .ok () ↔ textOk space = true := by
  unfold validateSpaceName
  split <;> simp [*]

theorem validateSpaces_accepts {entries : List SpaceGrouping} {names : List String} :
    validateSpaces names entries = .ok () ↔ (entries.map SpaceGrouping.space).Nodup ∧
      ∀ e ∈ entries, e.space ∉ names ∧ textOk e.space = true ∧ e.mapping.Accepted := by
  induction entries generalizing names with
  | nil => simp [validateSpaces]
  | cons entry entries ih =>
      unfold validateSpaces
      simp only [check_then, validateSpaceName_accepts]
      by_cases hname : entry.space ∈ names
      · simp [hname]
      · simp only [hname, if_false, check_then, GroupingMapping.validateAs_accepts, ih,
          List.mem_cons, List.map_cons, List.nodup_cons, List.mem_map, not_or]
        constructor
        · rintro ⟨htext, hmapping, hnodup, hrest⟩
          refine ⟨⟨?_, hnodup⟩, ?_⟩
          · rintro ⟨e, he, heq⟩
            exact (hrest e he).1.1 heq
          · rintro e (rfl | he)
            · exact ⟨hname, htext, hmapping⟩
            · exact ⟨(hrest e he).1.2, (hrest e he).2⟩
        · rintro ⟨⟨hnew, hnodup⟩, hall⟩
          have hhead := hall entry (.inl rfl)
          refine ⟨hhead.2.1, hhead.2.2, hnodup, fun e he => ?_⟩
          exact ⟨⟨fun heq => hnew ⟨e, he, heq⟩, (hall e (.inr he)).1⟩, (hall e (.inr he)).2⟩

/-- Every space once, and every name and mapping acceptable. -/
structure GroupingConfig.Accepted (c : GroupingConfig) : Prop where
  global : c.global.Accepted
  distinct : (c.spaces.map SpaceGrouping.space).Nodup
  spaces : ∀ e ∈ c.spaces, textOk e.space = true ∧ e.mapping.Accepted

theorem GroupingConfig.validate_accepts {c : GroupingConfig} :
    c.validate = .ok () ↔ c.Accepted := by
  simp only [GroupingConfig.validate, check_then, GroupingMapping.validateAs_accepts,
    validateSpaces_accepts]
  constructor
  · rintro ⟨hglobal, hnodup, hspaces⟩
    exact ⟨hglobal, hnodup, fun e he => (hspaces e he).2⟩
  · intro h
    exact ⟨h.global, h.distinct, fun e he => ⟨List.not_mem_nil, h.spaces e he⟩⟩

end HerdrBoard.LocalState
