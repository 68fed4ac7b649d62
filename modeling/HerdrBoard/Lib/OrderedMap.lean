import Mathlib.Data.List.Nodup
import Mathlib.Tactic.Common

/-!
# Maps in the order of their keys' first entry

A key that is put again keeps its place, a new key goes last, and removing a key leaves the order
of the rest. -/

namespace Lib

/-- Entries in order, each key once. -/
@[ext] structure OrderedMap (κ α : Type) where
  entries : List (κ × α)
  distinct : (entries.map Prod.fst).Nodup

namespace OrderedMap

variable {κ α : Type} [DecidableEq κ]

def empty : OrderedMap κ α := ⟨[], List.nodup_nil⟩

def keys (m : OrderedMap κ α) : List κ := m.entries.map Prod.fst

/-- Replace the value of a key. -/
def revalue (k : κ) (a : α) (entries : List (κ × α)) : List (κ × α) :=
  entries.map fun e => if e.1 = k then (e.1, a) else e

theorem keys_revalue (k : κ) (a : α) (entries : List (κ × α)) :
    (revalue k a entries).map Prod.fst = entries.map Prod.fst := by
  rw [revalue, List.map_map]
  apply List.map_congr_left
  intro e _
  by_cases h : e.1 = k <;> simp [h]

def put (m : OrderedMap κ α) (k : κ) (a : α) : OrderedMap κ α :=
  if h : k ∈ m.keys then ⟨revalue k a m.entries, by rw [keys_revalue]; exact m.distinct⟩
  else ⟨m.entries ++ [(k, a)], by
    simp only [List.map_append, List.map_cons, List.map_nil]
    apply List.nodup_append.mpr
    exact ⟨m.distinct, List.nodup_singleton _,
      fun x hx y hy hxy => h (List.mem_singleton.mp hy ▸ hxy ▸ hx)⟩⟩

def erase (m : OrderedMap κ α) (k : κ) : OrderedMap κ α :=
  ⟨m.entries.filter fun e => decide (e.1 ≠ k), m.distinct.sublist (List.filter_sublist.map _)⟩

omit [DecidableEq κ] in
@[simp] theorem entries_empty : (empty : OrderedMap κ α).entries = [] := rfl

theorem entries_put_of_mem {m : OrderedMap κ α} {k : κ} {a : α} (h : k ∈ m.keys) :
    (m.put k a).entries = revalue k a m.entries := by simp [put, h]

theorem entries_put_of_not_mem {m : OrderedMap κ α} {k : κ} {a : α} (h : k ∉ m.keys) :
    (m.put k a).entries = m.entries ++ [(k, a)] := by simp [put, h]

@[simp] theorem entries_erase (m : OrderedMap κ α) (k : κ) :
    (m.erase k).entries = m.entries.filter fun e => decide (e.1 ≠ k) := rfl

end OrderedMap

end Lib
