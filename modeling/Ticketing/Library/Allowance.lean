import Mathlib.Algebra.Order.Field.Rat
import Mathlib.Tactic.Linarith
import Mathlib.Tactic.NormNum

/-!
# Allowances that accrue with time

A meter holds an allowance that grows at a fixed rate up to a cap. When every step spends no more
than was left and has accrued since the last reading, what is spent between two readings is bounded
by the cap and the time between them, however the steps in between were spaced.
-/

namespace Allowance

structure Reading where
  time : ℕ
  left : ℕ

/-- What is spent between two readings was left before or has accrued since. -/
structure Spends (rate : ℕ) (before : Reading) (spent : ℕ) (after : Reading) : Prop where
  forward : before.time ≤ after.time
  covered : after.left + spent ≤ before.left + rate * (after.time - before.time)

namespace Spends

variable {rate cap spent more : ℕ} {before middle after : Reading}

theorem refl (rate : ℕ) (reading : Reading) : Spends rate reading 0 reading where
  forward := le_rfl
  covered := by simp

theorem trans (h : Spends rate before spent middle) (h' : Spends rate middle more after) :
    Spends rate before (spent + more) after where
  forward := h.forward.trans h'.forward
  covered := by
    have hsplit : after.time - before.time =
        (middle.time - before.time) + (after.time - middle.time) := by
      have := h.forward
      have := h'.forward
      omega
    have hfirst := h.covered
    have hsecond := h'.covered
    rw [hsplit, Nat.mul_add]
    omega

/-- A reading that is at most the cap bounds what can be spent from it. -/
theorem spent_le (h : Spends rate before spent after) (hcap : before.left ≤ cap) :
    spent ≤ cap + rate * (after.time - before.time) := by
  have hcovered := h.covered
  omega

end Spends

/-- The same bound in units, for an allowance kept in thousandths. -/
theorem units_le {units cap rate start stop : ℕ} (hforward : start ≤ stop)
    (h : 1000 * units ≤ 1000 * cap + rate * (stop - start)) :
    (units : ℚ) ≤ cap + rate * ((stop : ℚ) - start) / 1000 := by
  have hcast : (1000 * units : ℚ) ≤ 1000 * cap + rate * ((stop : ℚ) - start) := by
    have hle : ((1000 * units : ℕ) : ℚ) ≤ ((1000 * cap + rate * (stop - start) : ℕ) : ℚ) := by
      exact_mod_cast h
    rw [Nat.cast_add, Nat.cast_mul, Nat.cast_mul, Nat.cast_mul, Nat.cast_sub hforward] at hle
    exact_mod_cast hle
  linarith

end Allowance
