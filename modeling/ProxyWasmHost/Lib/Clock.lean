/-
  A clock that ticks with a fixed period, seen from an instant at which it has some phase.
-/
import Mathlib.Algebra.Order.Floor.Semiring
import Mathlib.Algebra.Order.Field.Basic
import Mathlib.Order.Bounds.Basic
import Mathlib.Tactic.Linarith

/-- A clock that ticks once every `period`, for the first time `phase` after the instant
    zero. -/
structure Clock (K : Type*) [Field K] [LinearOrder K] where
  period : K
  phase : K
  period_pos : 0 < period
  phase_pos : 0 < phase
  phase_le : phase ≤ period

namespace Clock

variable {K : Type*} [Field K] [LinearOrder K] [IsStrictOrderedRing K] [FloorSemiring K]

/-- The number of ticks up to the instant `t`. -/
def ticksBy (clock : Clock K) (t : K) : ℕ :=
  if t < clock.phase then 0 else ⌊(t - clock.phase) / clock.period⌋₊ + 1

/-- The instant of the tick that `n` others come before. -/
def tickAt (clock : Clock K) (n : ℕ) : K := clock.phase + n * clock.period

variable {clock : Clock K} {t : K} {n : ℕ}

omit [FloorSemiring K] in
theorem tickAt_pos : 0 < clock.tickAt n :=
  add_pos_of_pos_of_nonneg clock.phase_pos (mul_nonneg n.cast_nonneg clock.period_pos.le)

theorem succ_le_ticksBy : n + 1 ≤ clock.ticksBy t ↔ clock.tickAt n ≤ t := by
  unfold ticksBy tickAt
  have hsteps : (0 : K) ≤ n * clock.period := mul_nonneg n.cast_nonneg clock.period_pos.le
  by_cases ht : t < clock.phase
  · rw [if_pos ht]
    refine iff_of_false (by omega) (not_le.2 (ht.trans_le ?_))
    exact le_add_of_nonneg_right hsteps
  · have hleft : 0 ≤ (t - clock.phase) / clock.period :=
      div_nonneg (sub_nonneg.2 (not_lt.1 ht)) clock.period_pos.le
    rw [if_neg ht, Nat.add_le_add_iff_right, Nat.le_floor_iff hleft, le_div_iff₀ clock.period_pos,
      le_sub_iff_add_le']

/-- **A number of ticks is first reached** when the last of them comes. -/
theorem isLeast_reached : IsLeast {t | 0 ≤ t ∧ n + 1 ≤ clock.ticksBy t} (clock.tickAt n) := by
  constructor
  · exact ⟨tickAt_pos.le, succ_le_ticksBy.2 le_rfl⟩
  · rintro t ⟨-, hreached⟩
    exact succ_le_ticksBy.1 hreached

end Clock
