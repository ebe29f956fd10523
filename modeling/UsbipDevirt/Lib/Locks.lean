import Mathlib.Logic.Relation
import Mathlib.Order.Defs.PartialOrder

/-!
# Waiting for mutexes

A thread waits for at most one mutex at a time, and a mutex has at most one
holder. Where whatever a thread holds while it waits is below what it waits for,
no thread waits for itself through others.

A mutex `Guards` the scopes of its guard values: it is locked by the thread that
is in such a scope.
-/

namespace Locks

universe u v w

variable {T : Type u} {M : Type v} {R : Type w}

/-- `t` waits for a mutex that `u` holds. -/
def WaitsFor (holder : M → Option T) (wants : T → Option M) (t u : T) : Prop :=
  ∃ m, wants t = some m ∧ holder m = some u

/-- A thread that waits for a mutex holds only mutexes below it. -/
def Ordered [Preorder R] (rank : M → R) (holder : M → Option T) (wants : T → Option M) : Prop :=
  ∀ t m m', holder m = some t → wants t = some m' → rank m < rank m'

section Chains

variable [Preorder R] {rank : M → R} {holder : M → Option T} {wants : T → Option M}

/-- Along a chain of waiting threads the mutexes go up. -/
theorem Ordered.chain_rises (ordered : Ordered rank holder wants) {t u : T}
    (chain : Relation.TransGen (WaitsFor holder wants) t u) :
    ∃ m m', wants t = some m ∧ holder m' = some u ∧ rank m ≤ rank m' := by
  induction chain with
  | single first =>
    obtain ⟨m, waits, held⟩ := first
    exact ⟨m, m, waits, held, le_refl _⟩
  | tail _ last ih =>
    obtain ⟨m, m', waits, held, rises⟩ := ih
    obtain ⟨m'', waits', held'⟩ := last
    exact ⟨m, m'', waits, held', le_trans rises (le_of_lt (ordered _ _ _ held waits'))⟩

theorem Ordered.no_cycle (ordered : Ordered rank holder wants) (t : T) :
    ¬ Relation.TransGen (WaitsFor holder wants) t t := by
  intro cycle
  obtain ⟨m, m', waits, held, rises⟩ := ordered.chain_rises cycle
  exact lt_irrefl _ (lt_of_lt_of_le (ordered t m' m held waits) rises)

end Chains

/-! ## Scopes -/

def Guards (mutex : Option T) (inScope : T → Prop) : Prop := ∀ t, mutex = some t ↔ inScope t

namespace Guards

variable {mutex : Option T} {inScope inScope' : T → Prop}

/-- Two threads are never in scope at once. -/
theorem unique (h : Guards mutex inScope) {t u : T} (ht : inScope t) (hu : inScope u) : t = u :=
  Option.some.inj (((h t).mpr ht).symm.trans ((h u).mpr hu))

theorem not_of_none (h : Guards none inScope) (t : T) : ¬ inScope t := by
  intro ht
  cases (h t).mpr ht

theorem keep (h : Guards mutex inScope) (same : ∀ t, inScope' t ↔ inScope t) :
    Guards mutex inScope' := fun t => (h t).trans (same t).symm

theorem take (h : Guards none inScope) (me : T) (entered : inScope' me)
    (others : ∀ t, t ≠ me → (inScope' t ↔ inScope t)) : Guards (some me) inScope' := by
  intro t
  constructor
  · intro same
    obtain rfl := Option.some.inj same
    exact entered
  · intro ht
    by_cases other : t = me
    · rw [other]
    · exact absurd ((others t other).mp ht) (h.not_of_none t)

theorem release (h : Guards mutex inScope) (me : T) (inside : inScope me) (left : ¬ inScope' me)
    (others : ∀ t, t ≠ me → (inScope' t ↔ inScope t)) : Guards none inScope' := by
  intro t
  constructor
  · rintro ⟨⟩
  · intro ht
    by_cases other : t = me
    · exact absurd (other ▸ ht) left
    · exact absurd (h.unique ((others t other).mp ht) inside) other

end Guards

end Locks
