import HerdrBoard.Core.Capability
import HerdrBoard.Core.Json
import HerdrBoard.Core.Protocol
import Mathlib.Data.List.Sort

/-!
# The live antigravity catalog

The CLI lists one id a variant. Variants of one base become one model with the efforts
that agy knows. -/

namespace HerdrBoard.Core

namespace AgyCatalog

/-- Hard cap on the entries of one CLI run. -/
def MAX_MODELS : Nat := 256

def ANTIGRAVITY_EFFORTS : List Effort := [.low, .medium, .high]

/-- The base id and the effort of a catalog id that ends in an effort. -/
def splitEffortSuffix (id : String) : Option (String × Effort) := do
  let (base, suffix) ← rsplitOnce '-' id
  if base = "" then none
  else
    match suffix with
    | "low" => some (base, .low)
    | "medium" => some (base, .medium)
    | "high" => some (base, .high)
    | _ => none

/-- The efforts of each base id, as they were met. -/
abbrev ByBase := List (String × List Effort)

/-- Change the efforts of the base; those of a new base are empty before. -/
def ByBase.entry (base : String) (f : List Effort → List Effort) : ByBase → ByBase
  | [] => [(base, f [])]
  | (key, efforts) :: rest =>
      if key = base then (key, f efforts) :: rest else (key, efforts) :: ByBase.entry base f rest

def ByBase.add (byBase : ByBase) (entry : Value) : ByBase :=
  match ((entry.get "id").bind Value.asStr).map trim with
  | none => byBase
  | some id =>
      if id = "" then byBase
      else
        match splitEffortSuffix id with
        | some (base, effort) =>
            byBase.entry base fun efforts => if effort ∈ efforts then efforts
              else efforts ++ [effort]
        | none => byBase.entry id fun efforts => efforts

/-- The model of a base, with its efforts in ascending order. -/
def modelOf (base : String × List Effort) : ModelInfo where
  id := base.1
  efforts := (base.2.filter fun e => ANTIGRAVITY_EFFORTS.contains e).insertionSort fun a b =>
    ANTIGRAVITY_EFFORTS.idxOf a ≤ ANTIGRAVITY_EFFORTS.idxOf b

/-- The catalog of what the CLI printed; none where it lists no model. -/
def parseModels (root : Value) : Option (List ModelInfo) := do
  if (root.get "status").bind Value.asStr ≠ some "SUCCESS" then none
  else
    let command ← root.get "command"
    let data ← command.get "data"
    let models ← data.get "models"
    let entries ← models.asArray
    let byBase := (entries.take MAX_MODELS).foldl ByBase.add []
    if byBase = [] then none else some ((byBase.map modelOf).insertionSort fun a b => a.id ≤ b.id)

/-- Every effort of a parsed catalog is one that agy can be asked for. -/
theorem efforts_of_parsed {root : Value} {models : List ModelInfo}
    (h : parseModels root = some models) :
    ∀ m ∈ models, ∀ e ∈ m.efforts, e ∈ ANTIGRAVITY_DEFAULT_EFFORTS := by
  intro m hm e he
  simp only [parseModels] at h
  split at h
  · contradiction
  · simp only [Option.bind_eq_bind, Option.bind_eq_some_iff] at h
    obtain ⟨_, _, _, _, _, _, entries, _, h⟩ := h
    split at h
    · contradiction
    · obtain rfl := Option.some.inj h
      obtain ⟨base, -, rfl⟩ := List.mem_map.mp (List.mem_insertionSort _ |>.mp hm)
      have hkept := (List.mem_filter.mp (List.mem_insertionSort _ |>.mp he)).2
      simpa [ANTIGRAVITY_EFFORTS, ANTIGRAVITY_DEFAULT_EFFORTS] using hkept

end AgyCatalog

end HerdrBoard.Core
