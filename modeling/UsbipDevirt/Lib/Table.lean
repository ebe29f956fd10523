import Mathlib.Data.Finmap

/-!
# Finite tables

Lookup after an update, in the conditional form that case analysis on the key
wants. The maps themselves and their unconditional laws are Mathlib's.
-/

universe u v

/-- A finite map from keys to values of one type. -/
abbrev Table (K : Type u) (V : Type v) := Finmap fun _ : K => V

namespace Table

variable {K : Type u} {V : Type v} [DecidableEq K]

@[simp] theorem lookup_insert (m : Table K V) (j k : K) (v : V) :
    (m.insert k v).lookup j = if j = k then some v else m.lookup j := by
  split
  · next h => rw [h, Finmap.lookup_insert]
  · next h => exact Finmap.lookup_insert_of_ne m h

@[simp] theorem lookup_erase (m : Table K V) (j k : K) :
    (m.erase k).lookup j = if j = k then none else m.lookup j := by
  split
  · next h => rw [h, Finmap.lookup_erase]
  · next h => exact Finmap.lookup_erase_ne h

theorem lookup_of_erase {m : Table K V} {j k : K} {v : V} (h : (m.erase j).lookup k = some v) :
    m.lookup k = some v := by
  rw [lookup_erase] at h
  split at h
  · cases h
  · exact h

theorem erase_of_lookup_none (m : Table K V) (k : K) (h : m.lookup k = none) :
    m.erase k = m := by
  apply Finmap.ext_lookup
  intro j
  rw [lookup_erase]
  split
  · next hj => rw [hj, h]
  · rfl

theorem mem_iff_lookup_ne_none (m : Table K V) (k : K) : k ∈ m ↔ m.lookup k ≠ none := by
  rw [ne_eq, Finmap.lookup_eq_none, not_not]

/-! ## Keys, counted -/

theorem keys_insert_new (m : Table K V) (k : K) (v : V) (h : m.lookup k = none) :
    (m.insert k v).keys.val = k ::ₘ m.keys.val := by
  have added : (m.insert k v).keys = insert k m.keys := by
    ext j
    simp [Finmap.mem_keys]
  have new : k ∉ m.keys := by
    rw [Finmap.mem_keys]
    exact Finmap.lookup_eq_none.mp h
  rw [added, Finset.insert_val_of_notMem new]

theorem keys_eq_cons_erase (m : Table K V) (k : K) (h : k ∈ m) :
    m.keys.val = k ::ₘ (m.erase k).keys.val := by
  rw [Finmap.keys_erase, Finset.erase_val, Multiset.cons_erase (Finmap.mem_keys.mpr h)]

theorem erase_of_notMem (m : Table K V) (k : K) (h : k ∉ m) : m.erase k = m :=
  erase_of_lookup_none m k (Finmap.lookup_eq_none.mpr h)

/-- Some key is mapped to `v`. -/
def Holds (m : Table K V) (v : V) : Prop := ∃ k ∈ m.keys, m.lookup k = some v

instance [DecidableEq V] (m : Table K V) (v : V) : Decidable (m.Holds v) :=
  inferInstanceAs (Decidable (∃ k ∈ m.keys, m.lookup k = some v))

theorem holds_iff (m : Table K V) (v : V) : m.Holds v ↔ ∃ k, m.lookup k = some v := by
  constructor
  · rintro ⟨k, _, hk⟩
    exact ⟨k, hk⟩
  · rintro ⟨k, hk⟩
    exact ⟨k, Finmap.mem_keys.mpr (Finmap.mem_of_lookup_eq_some hk), hk⟩

end Table

/-- In a list without repeated keys, a key finds the element it belongs to. -/
theorem find?_of_nodup {α : Type u} {K : Type v} [DecidableEq K] {key : α → K} {l : List α}
    (nodup : (l.map key).Nodup) {a : α} (mem : a ∈ l) :
    l.find? (fun x => key x = key a) = some a := by
  induction l with
  | nil => cases mem
  | cons x l ih =>
    obtain ⟨new, nodup⟩ := List.nodup_cons.mp nodup
    rcases List.mem_cons.mp mem with rfl | later
    · simp
    · have other : key x ≠ key a := fun same => new (same ▸ List.mem_map_of_mem later)
      rw [List.find?_cons_of_neg (by simpa using other), ih nodup later]
