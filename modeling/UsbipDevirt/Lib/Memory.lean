import Mathlib.Data.Vector.Basic

/-!
# Bounded memory

An allocation of `n` cells. A load or a store that does not stay inside of it has
no result, so a program that has one stays inside. A store changes the cells it
covers and no others.
-/

namespace Memory

universe u

variable {α : Type u} {n : Nat}

/-- The `len` cells from `offset` on. -/
def load (memory : List.Vector α n) (offset len : Nat) : Option (List α) :=
  if offset + len ≤ n then some ((memory.toList.drop offset).take len) else none

def store (memory : List.Vector α n) (offset : Nat) (cells : List α) :
    Option (List.Vector α n) :=
  if inside : offset + cells.length ≤ n then
    some ⟨memory.toList.take offset ++ (cells ++ memory.toList.drop (offset + cells.length)), by
      simp only [List.length_append, List.length_take, List.length_drop,
        List.Vector.toList_length]
      omega⟩
  else none

theorem toList_replicate (n : Nat) (cell : α) :
    (List.Vector.replicate n cell).toList = List.replicate n cell := rfl

theorem load_inside (memory : List.Vector α n) {offset len : Nat} (inside : offset + len ≤ n) :
    load memory offset len = some ((memory.toList.drop offset).take len) := if_pos inside

theorem store_inside (memory : List.Vector α n) {offset : Nat} {cells : List α}
    (inside : offset + cells.length ≤ n) :
    ∃ after, store memory offset cells = some after ∧
      after.toList =
        memory.toList.take offset ++ (cells ++ memory.toList.drop (offset + cells.length)) :=
  ⟨_, dif_pos inside, rfl⟩

theorem toList_of_store {memory after : List.Vector α n} {offset : Nat} {cells : List α}
    (stored : store memory offset cells = some after) :
    offset + cells.length ≤ n ∧ after.toList =
      memory.toList.take offset ++ (cells ++ memory.toList.drop (offset + cells.length)) := by
  by_cases inside : offset + cells.length ≤ n
  · obtain ⟨same, equal, list⟩ := store_inside memory inside
    obtain rfl := Option.some.inj (equal.symm.trans stored)
    exact ⟨inside, list⟩
  · rw [store, dif_neg inside] at stored
    cases stored

/-- What was stored is loaded again. -/
theorem load_store {memory after : List.Vector α n} {offset : Nat} {cells : List α}
    (stored : store memory offset cells = some after) :
    load after offset cells.length = some cells := by
  obtain ⟨inside, list⟩ := toList_of_store stored
  have front : (memory.toList.take offset).length = offset := by
    rw [List.length_take, List.Vector.toList_length]
    omega
  rw [load_inside after inside, list, List.drop_left' front, List.take_left]

/-- The cells in front of a store stay. -/
theorem take_store {memory after : List.Vector α n} {offset : Nat} {cells : List α}
    (stored : store memory offset cells = some after) {len : Nat} (before : len ≤ offset) :
    after.toList.take len = memory.toList.take len := by
  obtain ⟨inside, list⟩ := toList_of_store stored
  have front : len ≤ (memory.toList.take offset).length := by
    rw [List.length_take, List.Vector.toList_length]
    omega
  rw [list, List.take_append_of_le_length front, List.take_take, Nat.min_eq_left before]

end Memory
