import Mathlib.Algebra.Group.Nat.Defs

/-!
# Keys from a cyclic counter

A counter hands out one key per ticket and comes round after a fixed period.
A key is live from some time after it was handed out until it is released.
Handing out a live key is then the same as keeping some key live for a whole
period, so a bound on lifetimes, counted in tickets, is exactly what makes
such a counter safe.
-/

namespace Tickets

universe u

variable {K : Type u} {key : ℕ → K} {period count : ℕ} {live : ℕ → K → Prop}

/-- Every window of `period` tickets shows each key once. -/
structure Cyclic (key : ℕ → K) (period : ℕ) : Prop where
  complete : ∀ n k, ∃ i, n ≤ i ∧ i < n + period ∧ key i = k
  distinct : ∀ i j, i < j → j < i + period → key i ≠ key j

/-- The live keys in front of each of the first `count` tickets: none at first,
and later only those that were live before or have just been handed out. -/
structure Ledger (key : ℕ → K) (live : ℕ → K → Prop) (count : ℕ) : Prop where
  empty : ∀ k, 0 < count → ¬ live 0 k
  grows : ∀ n k, n + 1 < count → live (n + 1) k → live n k ∨ k = key n

/-- A key that was not handed out for `d` tickets and is live now was live all along. -/
theorem Ledger.live_before (led : Ledger key live count) {k : K} {n d : ℕ} (hn : n + d < count)
    (quiet : ∀ i, n ≤ i → i < n + d → key i ≠ k) (now : live (n + d) k) : live n k := by
  induction d with
  | zero => exact now
  | succ d ih =>
    apply ih (by omega) (fun i hi hid => quiet i hi (by omega))
    rcases led.grows (n + d) k hn now with before | handed
    · exact before
    · exact absurd handed.symm (quiet (n + d) (by omega) (by omega))

/-- Within the first period nothing can come round. -/
theorem Ledger.fresh_early (cyc : Cyclic key period) (led : Ledger key live count) {n : ℕ}
    (hn : n < count) (early : n < period) : ¬ live n (key n) := by
  intro now
  have first : live 0 (key n) := by
    refine led.live_before (d := n) (by omega) (fun i _ hi => ?_) (by simpa using now)
    exact cyc.distinct i n (by omega) (by omega)
  exact led.empty (key n) (by omega) first

/-- Only keys that are not live are handed out, exactly when no key stays
live through a whole period. -/
theorem Ledger.fresh_iff (cyc : Cyclic key period) (led : Ledger key live count) :
    (∀ n < count, ¬ live n (key n)) ↔
      ∀ k n, n + period ≤ count → ∃ i, n ≤ i ∧ i < n + period ∧ ¬ live i k := by
  constructor
  · intro fresh k n hn
    obtain ⟨i, hni, hin, rfl⟩ := cyc.complete n k
    exact ⟨i, hni, hin, fresh i (by omega)⟩
  · intro released n hn now
    by_cases early : n < period
    · exact led.fresh_early cyc hn early now
    · have hpos : 0 < period := by
        obtain ⟨i, hi, hip, _⟩ := cyc.complete 0 (key n)
        omega
      -- the window of one period that ends with this ticket
      obtain ⟨i, hi, hin, dead⟩ := released (key n) (n + 1 - period) (by omega)
      apply dead
      refine led.live_before (d := n - i) (by omega) (fun j hj hjn => ?_) ?_
      · exact cyc.distinct j n (by omega) (by omega)
      · rwa [show i + (n - i) = n by omega]

/-- A 32-bit counter, from any start. -/
theorem cyclic_uint32 (start : ℕ) : Cyclic (fun n => UInt32.ofNat (start + n)) (2 ^ 32) where
  complete n k := by
    -- the distance from the counter to `k`, counted upwards
    refine ⟨n + (k.toNat + (2 ^ 32 - (start + n) % 2 ^ 32)) % 2 ^ 32, by omega, by omega, ?_⟩
    apply UInt32.toNat_inj.mp
    have hk := k.toNat_lt
    simp only [UInt32.toNat_ofNat']
    omega
  distinct i j hij hji := by
    intro same
    have := congrArg UInt32.toNat same
    simp only [UInt32.toNat_ofNat'] at this
    omega

end Tickets
