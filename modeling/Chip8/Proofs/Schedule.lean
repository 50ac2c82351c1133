import Chip8.Pacer

/-!
# Chip8 — targets, quotas and deadlines

The target of a poll is worked out from nanoseconds, the deadline of a timer tick from cycles, and
both are rounded down on their own. What ties them together is that a tick within the quota of some
time has its deadline by the target of that time, and a tick beyond the quota does not have it
before. As long as a target fits into sixty-four bits, so do the deadlines within its quota.

Main statements:

* `tickDeadline_le_due` — no deadline within the quota lies behind the target;
* `due_le_tickDeadline` — no deadline beyond the quota lies before the target.
-/

namespace Chip8.Pacer

/-! ## Rounding -/

theorem cut64_of_lt {n : Nat} (h : n < bound64) : cut64 n = n :=
  Nat.mod_eq_of_lt h

/-- A tick that has come by some time has its cycle by then. -/
theorem tick_cycle_le {tick elapsed rate : Nat}
    (h : tick ≤ elapsed * ticksPerSecond / second) :
    tick * rate / ticksPerSecond ≤ elapsed * rate / second := by
  -- multiplied out, the two quotients can be compared without their remainders
  have hsecond : 0 < second := by decide
  have htick : tick * second ≤ elapsed * ticksPerSecond := (Nat.le_div_iff_mul_le hsecond).1 h
  rw [Nat.le_div_iff_mul_le hsecond]
  have hround : tick * rate / ticksPerSecond * ticksPerSecond ≤ tick * rate :=
    Nat.div_mul_le_self ..
  refine Nat.le_of_mul_le_mul_right ?_ (show 0 < ticksPerSecond by decide)
  calc tick * rate / ticksPerSecond * second * ticksPerSecond
      = tick * rate / ticksPerSecond * ticksPerSecond * second := Nat.mul_right_comm ..
    _ ≤ tick * rate * second := Nat.mul_le_mul_right _ hround
    _ = tick * second * rate := Nat.mul_right_comm ..
    _ ≤ elapsed * ticksPerSecond * rate := Nat.mul_le_mul_right _ htick
    _ = elapsed * rate * ticksPerSecond := Nat.mul_right_comm ..

/-- A tick that has not come by some time does not have its cycle before then. -/
theorem le_tick_cycle {tick elapsed rate : Nat}
    (h : elapsed * ticksPerSecond / second < tick) :
    elapsed * rate / second ≤ tick * rate / ticksPerSecond := by
  have hsecond : 0 < second := by decide
  -- rounding down loses less than one tick
  have htick : elapsed * ticksPerSecond ≤ tick * second :=
    Nat.le_of_lt ((Nat.div_lt_iff_lt_mul hsecond).1 h)
  rw [Nat.le_div_iff_mul_le (show 0 < ticksPerSecond by decide)]
  have hround : elapsed * rate / second * second ≤ elapsed * rate := Nat.div_mul_le_self ..
  refine Nat.le_of_mul_le_mul_right ?_ hsecond
  calc elapsed * rate / second * ticksPerSecond * second
      = elapsed * rate / second * second * ticksPerSecond := Nat.mul_right_comm ..
    _ ≤ elapsed * rate * ticksPerSecond := Nat.mul_le_mul_right _ hround
    _ = elapsed * ticksPerSecond * rate := Nat.mul_right_comm ..
    _ ≤ tick * second * rate := Nat.mul_le_mul_right _ htick
    _ = tick * rate * second := Nat.mul_right_comm ..

/-! ## Within sixty-four bits -/

theorem due_of_lt {elapsed rate : Nat} (h : elapsed * rate / second < bound64) :
    due elapsed rate = elapsed * rate / second :=
  cut64_of_lt h

/-- The ticks of a time that fits into sixty-four bits fit as well. -/
theorem ticks_lt {elapsed : Nat} (h : elapsed < bound64) :
    elapsed * ticksPerSecond / second < bound64 := by
  simp only [ticksPerSecond, second, bound64] at *
  omega

theorem due_ticks {elapsed : Nat} (h : elapsed < bound64) :
    due elapsed ticksPerSecond = elapsed * ticksPerSecond / second :=
  due_of_lt (ticks_lt h)

theorem due_mono_of_lt {elapsed later rate : Nat} (hle : elapsed ≤ later)
    (h : later * rate / second < bound64) : due elapsed rate ≤ due later rate := by
  have hmono : elapsed * rate / second ≤ later * rate / second :=
    Nat.div_le_div_right (Nat.mul_le_mul_right rate hle)
  rw [due_of_lt h, due_of_lt (Nat.lt_of_le_of_lt hmono h)]
  exact hmono

/-- A deadline within the quota of a time is not cut if the target of that time is not. -/
theorem tickDeadline_of_le {tick elapsed rate : Nat}
    (h : tick ≤ elapsed * ticksPerSecond / second) (hcut : elapsed * rate / second < bound64) :
    tickDeadline tick rate = tick * rate / ticksPerSecond :=
  cut64_of_lt (Nat.lt_of_le_of_lt (tick_cycle_le h) hcut)

/-- The deadlines within the quota of a time lie no later than its target. -/
theorem tickDeadline_le_due {tick elapsed rate : Nat}
    (h : tick ≤ elapsed * ticksPerSecond / second) (hcut : elapsed * rate / second < bound64) :
    tickDeadline tick rate ≤ due elapsed rate := by
  rw [tickDeadline_of_le h hcut, due_of_lt hcut]
  exact tick_cycle_le h

/-- The deadlines beyond the quota of a time lie no earlier than its target. They are those that a
later time asks for, whose target is not cut. -/
theorem due_le_tickDeadline {tick elapsed later rate : Nat}
    (h : elapsed * ticksPerSecond / second < tick)
    (hlater : tick ≤ later * ticksPerSecond / second)
    (hcut : later * rate / second < bound64) :
    due elapsed rate ≤ tickDeadline tick rate := by
  -- the later time sees to it that neither number is cut
  have hdeadline := tickDeadline_of_le hlater hcut
  have hle : elapsed * rate / second ≤ tick * rate / ticksPerSecond := le_tick_cycle h
  have htick : tick * rate / ticksPerSecond < bound64 :=
    Nat.lt_of_le_of_lt (tick_cycle_le hlater) hcut
  rw [hdeadline, due_of_lt (Nat.lt_of_le_of_lt hle htick)]
  exact hle

end Chip8.Pacer
