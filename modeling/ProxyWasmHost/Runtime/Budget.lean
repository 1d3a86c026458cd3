/-
  The CPU time of a call into the guest, counted in ticks of the engine's epoch.

  Durations are numbers of nanoseconds.
-/
import Mathlib.Algebra.Order.Archimedean.Real.Basic
import ProxyWasmHost.Lib.Clock

namespace ProxyWasmHost

def u64Max : ℕ := 2 ^ 64 - 1

/-- `u128::div_ceil`. -/
def divCeil (a b : ℕ) : ℕ := if a % b > 0 then a / b + 1 else a / b

/-- The budgets that every call refills. -/
structure Budget where
  epochTicks : ℕ
  fuel : Option ℕ
  deriving DecidableEq

/-- What a store compares with the epoch of its engine, and the fuel it has left. -/
structure Fuelled where
  epochDeadline : ℕ
  fuel : ℕ
  deriving DecidableEq

namespace Budget

/-- The ticks of a CPU time, before the count is clamped. -/
def ticks (cpuTime epochPeriod : ℕ) : ℕ := max (divCeil cpuTime (max epochPeriod 1)) 1

/-- The budget of the limits `cpuTime` and `fuel` on an engine with `epochPeriod`. -/
def new (cpuTime : ℕ) (fuel : Option ℕ) (epochPeriod : ℕ) : Budget where
  epochTicks :=
    min (if ticks cpuTime epochPeriod ≤ u64Max then ticks cpuTime epochPeriod else u64Max)
      (u64Max / 4)
  fuel := fuel

/-- Applies the budget to `store` before a call, when the engine is at `epoch`; fuel cannot be
    set on an engine that does not count it. -/
def refill (budget : Budget) (epoch : ℕ) (countsFuel : Bool) (store : Fuelled) : Option Fuelled :=
  let store := { store with epochDeadline := epoch + budget.epochTicks }
  match budget.fuel with
  | none => some store
  | some fuel => if countsFuel then some { store with fuel := fuel } else none

end Budget

/-- A call that never returns is interrupted at `t` after its start: the epoch, which was `epoch`
    then, reaches the deadline of the store. -/
def InterruptedAt (clock : Clock ℝ) (epoch : ℕ) (store : Fuelled) (t : ℝ) : Prop :=
  IsLeast {t | 0 ≤ t ∧ store.epochDeadline ≤ epoch + clock.ticksBy t} t

/-- The call is interrupted no earlier than `cpuTime`, and no later than one period after it. -/
def OnTime (clock : Clock ℝ) (epoch : ℕ) (store : Fuelled) (cpuTime : ℕ) : Prop :=
  ∃ t, InterruptedAt clock epoch store t ∧ cpuTime ≤ t ∧ t ≤ cpuTime + clock.period

/-! ## The count of ticks -/

section Ticks

variable {cpuTime epochPeriod epoch : ℕ} {fuel : Option ℕ} {countsFuel : Bool}
  {store store' : Fuelled} {clock : Clock ℝ} {t : ℝ}

theorem one_le_epochTicks : 1 ≤ (Budget.new cpuTime fuel epochPeriod).epochTicks := by
  have hticks : 1 ≤ Budget.ticks cpuTime epochPeriod := le_max_right _ _
  refine le_min ?_ (by decide)
  split
  · exact hticks
  · decide

theorem epochTicks_le : (Budget.new cpuTime fuel epochPeriod).epochTicks ≤ u64Max / 4 :=
  min_le_right _ _

theorem epochTicks_of_unclamped (h : Budget.ticks cpuTime epochPeriod ≤ u64Max / 4) :
    (Budget.new cpuTime fuel epochPeriod).epochTicks = Budget.ticks cpuTime epochPeriod := by
  have hsmall : Budget.ticks cpuTime epochPeriod ≤ u64Max := h.trans (Nat.div_le_self _ _)
  rw [Budget.new, if_pos hsmall, min_eq_left h]

theorem epochDeadline_of_refill
    (h : (Budget.new cpuTime fuel epochPeriod).refill epoch countsFuel store = some store') :
    store'.epochDeadline = epoch + (Budget.new cpuTime fuel epochPeriod).epochTicks := by
  unfold Budget.refill at h
  dsimp only at h
  split at h
  · cases h
    rfl
  · split at h
    · cases h
      rfl
    · cases h

theorem ticks_zero (epochPeriod : ℕ) : Budget.ticks 0 epochPeriod = 1 := by
  simp [Budget.ticks, divCeil]

/-- All ticks but the last pass before the CPU time has. -/
theorem ticks_of_pos (hcpu : 0 < cpuTime) (hperiod : 0 < epochPeriod) :
    Budget.ticks cpuTime epochPeriod = (cpuTime - 1) / epochPeriod + 1 := by
  have hsplit := Nat.div_add_mod cpuTime epochPeriod
  have hlast := Nat.mod_lt cpuTime hperiod
  unfold Budget.ticks divCeil
  rw [max_eq_left (by omega : 1 ≤ epochPeriod)]
  split
  · rename_i hrest
    have hdiv : (cpuTime - 1) / epochPeriod = cpuTime / epochPeriod := by
      refine Nat.div_eq_of_lt_le ?_ ?_
      · rw [Nat.mul_comm]
        omega
      · rw [Nat.mul_comm, Nat.mul_succ]
        omega
    rw [hdiv, max_eq_left (Nat.le_add_left 1 _)]
  · rename_i hrest
    have hpos : 0 < cpuTime / epochPeriod := by
      refine Nat.pos_of_ne_zero fun hzero => ?_
      rw [hzero] at hsplit
      omega
    have hdiv : (cpuTime - 1) / epochPeriod = cpuTime / epochPeriod - 1 := by
      obtain ⟨n, hn⟩ : ∃ n, cpuTime / epochPeriod = n + 1 := ⟨_, (Nat.succ_pred_eq_of_pos hpos).symm⟩
      rw [hn, Nat.mul_succ] at hsplit
      rw [hn]
      refine Nat.div_eq_of_lt_le ?_ ?_
      · rw [Nat.mul_comm]
        show epochPeriod * n ≤ _
        omega
      · rw [Nat.mul_comm, Nat.mul_succ]
        show _ < epochPeriod * n + epochPeriod
        omega
    rw [hdiv, max_eq_left hpos, Nat.sub_add_cancel hpos]

end Ticks

/-! ## When a call is interrupted -/

section Interrupts

variable {cpuTime epochPeriod epoch ticks : ℕ} {store : Fuelled} {clock : Clock ℝ} {t : ℝ}

/-- **A call is interrupted** at the last of the ticks it may use. -/
theorem interruptedAt_iff (hdeadline : store.epochDeadline = epoch + (ticks + 1)) :
    InterruptedAt clock epoch store t ↔ t = clock.tickAt ticks := by
  have hset : {t | 0 ≤ t ∧ store.epochDeadline ≤ epoch + clock.ticksBy t} =
      {t | 0 ≤ t ∧ ticks + 1 ≤ clock.ticksBy t} := by
    ext t
    simp only [hdeadline, Set.mem_ofPred_eq, Nat.add_le_add_iff_left]
  unfold InterruptedAt
  rw [hset]
  exact ⟨fun hleast => hleast.unique Clock.isLeast_reached,
    fun heq => heq ▸ Clock.isLeast_reached⟩

theorem onTime_iff (hdeadline : store.epochDeadline = epoch + (ticks + 1)) :
    OnTime clock epoch store cpuTime ↔
      cpuTime ≤ clock.tickAt ticks ∧ clock.tickAt ticks ≤ cpuTime + clock.period := by
  unfold OnTime
  simp only [interruptedAt_iff hdeadline, exists_eq_left]

/-- The part of the CPU time that is left for the last tick: the remainder of the division by
    the period, or a whole period. -/
def lastPart (cpuTime epochPeriod : ℕ) : ℕ := (cpuTime - 1) % epochPeriod + 1

/-- **The bounds of the last tick.** It never comes late, and it comes early when the clock first
    ticks before the last part of the CPU time has passed. -/
theorem tickAt_bounds (hperiod : clock.period = epochPeriod)
    (hticks : ticks + 1 = Budget.ticks cpuTime epochPeriod) :
    clock.tickAt ticks ≤ cpuTime + clock.period ∧
      (cpuTime ≤ clock.tickAt ticks ↔
        cpuTime = 0 ∨ lastPart cpuTime epochPeriod ≤ clock.phase) := by
  have hphase := clock.phase_pos
  have hle := clock.phase_le
  have hpos : 0 < epochPeriod := by
    have := clock.period_pos
    rw [hperiod] at this
    exact_mod_cast this
  unfold Clock.tickAt
  rcases Nat.eq_zero_or_pos cpuTime with rfl | hcpu
  · rw [ticks_zero] at hticks
    obtain rfl : ticks = 0 := by omega
    simp only [Nat.cast_zero, zero_mul, add_zero, zero_add, true_or, iff_true]
    exact ⟨hle, hphase.le⟩
  · rw [ticks_of_pos hcpu hpos] at hticks
    have hsplit : epochPeriod * ticks + lastPart cpuTime epochPeriod = cpuTime := by
      have hdiv := Nat.div_add_mod (cpuTime - 1) epochPeriod
      unfold lastPart
      rw [show ticks = (cpuTime - 1) / epochPeriod by omega]
      omega
    have hreal : (cpuTime : ℝ) = ticks * clock.period + lastPart cpuTime epochPeriod := by
      have hcast : (epochPeriod : ℝ) * ticks + lastPart cpuTime epochPeriod = cpuTime := by
        exact_mod_cast hsplit
      rw [hperiod, ← hcast]
      ring
    have hlast : (0 : ℝ) ≤ lastPart cpuTime epochPeriod := Nat.cast_nonneg _
    rw [hreal]
    refine ⟨by linarith, ?_⟩
    constructor
    · intro h
      exact .inr (by linarith)
    · rintro (hzero | h)
      · omega
      · linarith

end Interrupts

/-- **The CPU budget.** The count of ticks is at least one, and small enough to be added to an
    epoch. A call that never returns is never interrupted late; it is interrupted on time exactly
    when the engine's clock does not tick before the last part of the CPU time has passed. -/
theorem cpu_budget (cpuTime epochPeriod epoch : ℕ) (fuel : Option ℕ) (countsFuel : Bool)
    (store store' : Fuelled) (clock : Clock ℝ) (hperiod : clock.period = epochPeriod)
    (hrefill : (Budget.new cpuTime fuel epochPeriod).refill epoch countsFuel store = some store') :
    1 ≤ (Budget.new cpuTime fuel epochPeriod).epochTicks ∧
    (Budget.new cpuTime fuel epochPeriod).epochTicks ≤ u64Max / 4 ∧
    (epoch ≤ u64Max - u64Max / 4 → store'.epochDeadline ≤ u64Max) ∧
    (Budget.ticks cpuTime epochPeriod ≤ u64Max / 4 →
      (∀ t, InterruptedAt clock epoch store' t → t ≤ cpuTime + clock.period) ∧
      (OnTime clock epoch store' cpuTime ↔
        cpuTime = 0 ∨ lastPart cpuTime epochPeriod ≤ clock.phase)) := by
  have hdeadline := epochDeadline_of_refill hrefill
  have hle : (Budget.new cpuTime fuel epochPeriod).epochTicks ≤ u64Max / 4 := epochTicks_le
  refine ⟨one_le_epochTicks, hle, fun hepoch => ?_, fun hunclamped => ?_⟩
  · have hquarter : u64Max / 4 ≤ u64Max := Nat.div_le_self _ _
    omega
  · obtain ⟨ticks, hticks⟩ : ∃ ticks, ticks + 1 = Budget.ticks cpuTime epochPeriod :=
      ⟨Budget.ticks cpuTime epochPeriod - 1, Nat.sub_add_cancel (le_max_right _ _)⟩
    rw [epochTicks_of_unclamped hunclamped, ← hticks] at hdeadline
    obtain ⟨hupper, hlower⟩ := tickAt_bounds hperiod hticks
    refine ⟨fun t ht => ?_, ?_⟩
    · rw [(interruptedAt_iff hdeadline).1 ht]
      exact hupper
    · rw [onTime_iff hdeadline, ← hlower]
      exact and_iff_left hupper

/-- The clock of an engine with a period of ten milliseconds, a millisecond before a tick. -/
def tenMilliseconds : Clock ℝ where
  period := 10000000
  phase := 1000000
  period_pos := by norm_num
  phase_pos := by norm_num
  phase_le := by norm_num

/-- A call with one millisecond is interrupted on time. -/
theorem cpu_budget_of_one_millisecond : OnTime tenMilliseconds 0 ⟨1, 0⟩ 1000000 := by
  have hbudget := cpu_budget 1000000 10000000 0 none true ⟨0, 0⟩ ⟨1, 0⟩ tenMilliseconds
    (by norm_num [tenMilliseconds]) rfl
  refine (hbudget.2.2.2 (by decide)).2.2 (.inr ?_)
  norm_num [lastPart, tenMilliseconds]

/-- **A call may be interrupted early**: with 25 milliseconds, a millisecond before a tick. -/
theorem interrupted_early : ¬ ∀ (cpuTime epochPeriod epoch : ℕ) (fuel : Option ℕ)
    (countsFuel : Bool) (store store' : Fuelled) (clock : Clock ℝ), clock.period = epochPeriod →
    (Budget.new cpuTime fuel epochPeriod).refill epoch countsFuel store = some store' →
    Budget.ticks cpuTime epochPeriod ≤ u64Max / 4 → OnTime clock epoch store' cpuTime := by
  intro hall
  have hon := hall 25000000 10000000 0 none true ⟨0, 0⟩ ⟨3, 0⟩ tenMilliseconds
    (by norm_num [tenMilliseconds]) rfl (by decide)
  have hdeadline : (⟨3, 0⟩ : Fuelled).epochDeadline = 0 + (2 + 1) := rfl
  obtain ⟨hearly, -⟩ := (onTime_iff hdeadline).1 hon
  norm_num [Clock.tickAt, tenMilliseconds] at hearly

end ProxyWasmHost
