import Mathlib.Data.UInt
import Mathlib.Dynamics.PeriodicPts.Lemmas
import Mathlib.Order.Bounds.Basic
import Mathlib.Tactic.LinearCombination
import Mathlib.Tactic.Ring
import Skirmish.Generator

/-!
# The period of the generator

1. `strides_iterate`: the step is an affine map whose factor is one more than a multiple of four
   and whose summand is odd. Doing such a map twice doubles the power of two in both, so `2 ^ k`
   steps move a state by an odd multiple of `2 ^ k`, but for multiples of `2 ^ (k + 2)`.
2. `minimalPeriod_step`: so `2 ^ 63` steps change every state, `2 ^ 64` steps change none, and all
   states are on one cycle.
3. `full_period`: a generator comes back to a state after `2 ^ 64` draws and not earlier, and
   generators with different seeds never meet after as many draws.
-/

namespace Skirmish.Generator

open Function
open scoped UInt64.CommRing

/-! ## Strides -/

/-- An affine map that moves every state by an odd multiple of `2 ^ k`, but for multiples of
`2 ^ (k + 2)`. -/
def Strides (k : ℕ) (f : UInt64 → UInt64) : Prop :=
  ∃ b d : UInt64, ∀ x, f x = x + 2 ^ k * (2 * d + 1) + 2 ^ (k + 2) * b * x

theorem strides_step : Strides 0 step := by
  have factor : multiplier = 1 + 4 * (multiplier / 4) := by decide +kernel
  have summand : increment = 1 + 2 * (increment / 2) := by decide +kernel
  refine ⟨multiplier / 4, increment / 2, fun x => ?_⟩
  unfold step
  linear_combination x * factor + summand

/-- Twice a stride is a stride twice as wide. -/
theorem Strides.twice {k : ℕ} {f : UInt64 → UInt64} (h : Strides k f) :
    Strides (k + 1) (f ∘ f) := by
  obtain ⟨b, d, hf⟩ := h
  refine ⟨b + 2 ^ (k + 1) * b * b, d + 2 ^ k * b * (2 * d + 1), fun x => ?_⟩
  rw [comp_apply, hf (f x), hf x]
  ring

theorem strides_iterate (k : ℕ) : Strides k step^[2 ^ k] := by
  induction k with
  | zero => exact strides_step
  | succ k ih =>
    rw [pow_succ, mul_two, iterate_add]
    exact ih.twice

/-! ## The cycle of the states -/

theorem isPeriodicPt_step (s : UInt64) : IsPeriodicPt step (2 ^ 64) s := by
  have vanishes : (2 : UInt64) ^ 64 = 0 := by decide +kernel
  obtain ⟨b, d, h⟩ := strides_iterate 64
  show step^[2 ^ 64] s = s
  rw [h s]
  linear_combination (2 * d + 1 + 4 * b * s) * vanishes

theorem not_isPeriodicPt_step (s : UInt64) : ¬IsPeriodicPt step (2 ^ 63) s := by
  have vanishes : (2 : UInt64) ^ 64 = 0 := by decide +kernel
  have remains : (2 : UInt64) ^ 63 ≠ 0 := by decide +kernel
  obtain ⟨b, d, h⟩ := strides_iterate 63
  intro back
  have same : s + 2 ^ 63 * (2 * d + 1) + 2 ^ (63 + 2) * b * s = s := (h s).symm.trans back
  exact remains (by linear_combination same - (d + 2 * b * s) * vanishes)

/-- **Period.** Every state comes back after `2 ^ 64` steps and not earlier. -/
theorem minimalPeriod_step (s : UInt64) : minimalPeriod step s = 2 ^ 64 := by
  have : Fact (Nat.Prime 2) := ⟨Nat.prime_two⟩
  exact minimalPeriod_eq_prime_pow (k := 63) (not_isPeriodicPt_step s) (isPeriodicPt_step s)

/-- On a cycle, a state has one predecessor. -/
theorem step_injective : Injective step := by
  intro s t h
  have hs := isPeriodicPt_step s
  have ht := isPeriodicPt_step t
  exact hs.eq_of_apply_eq_same ht (by positivity) h

theorem state_ofSeed_injective : Injective fun seed => (ofSeed seed).state :=
  step_injective.comp (add_left_injective increment)

/-! ## Draws -/

/-- The generator after `n` draws. -/
def draws (n : ℕ) (g : Generator) : Generator := (fun g => g.next.2)^[n] g

theorem state_draws (n : ℕ) (g : Generator) : (g.draws n).state = step^[n] g.state :=
  (Semiconj.iterate_right (f := state) (fun g => state_next g) n).eq g

/-- Whatever the seed, the states of a generator first come back to one of them after `2 ^ 64`
draws, and after any number of draws generators with different seeds are in different states. -/
theorem full_period :
    (∀ seed, IsLeast
      {n | ∃ m < n, ((ofSeed seed).draws n).state = ((ofSeed seed).draws m).state} (2 ^ 64)) ∧
      ∀ n, Injective fun seed => ((ofSeed seed).draws n).state := by
  simp only [state_draws]
  refine ⟨fun seed => ⟨⟨0, by positivity, isPeriodicPt_step _⟩, ?_⟩, fun n => ?_⟩
  · rintro n ⟨m, before, back⟩
    by_contra early
    have hn : n < minimalPeriod step (ofSeed seed).state := by
      rw [minimalPeriod_step]
      exact not_le.1 early
    have same := (iterate_eq_iterate_iff_of_lt_minimalPeriod hn (before.trans hn)).1 back
    exact before.ne' same
  · exact (step_injective.iterate n).comp state_ofSeed_injective

end Skirmish.Generator
