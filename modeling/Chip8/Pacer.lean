import Chip8.Machine.Input

/-!
# Chip8 — the pacer

A pacer turns elapsed time into instructions. A poll works out how many instructions should have run
since the pacer was made, its target, and steps the machine until it has caught up; how often it is
asked does not matter. When the timers of the machine go by the clock, it also ticks them, each tick
at the instruction its deadline falls on. A machine that waits for a key counts as caught up, so no
backlog builds up during a wait. A fault ends the poll.

Times are in nanoseconds. Targets and deadlines are cut to sixty-four bits.
-/

namespace Chip8

/-- Instructions per second if nothing else is chosen. -/
def usualRate : Nat := 1000

/-- Timer ticks per second of the clock. -/
def ticksPerSecond : Nat := 60

/-- Nanoseconds of a second. -/
def second : Nat := 1000000000

/-- A number cut to sixty-four bits. -/
def cut64 (n : Nat) : Nat :=
  n % bound64

/-- A rate, the time it counts from, and how far it got. -/
structure Pacer where
  start : Nat
  -- instructions per second
  rate : Nat
  -- instructions accounted for, executed or skipped during a wait
  cycles : Nat := 0
  -- timer ticks made
  ticks : Nat := 0
  deriving DecidableEq

/-- What a poll leaves behind. -/
structure Polled (ρ : Type) where
  -- how many instructions the poll executed, or the fault that ended it
  result : Except Fault Nat
  pacer : Pacer
  machine : Machine ρ
  events : Array Event

namespace Pacer

/-- A pacer that counts from now on. -/
def initial (now rate : Nat) : Pacer where
  start := now
  rate

/-- Nanoseconds since the pacer was made; a clock that went back before that shows none. -/
def elapsed (p : Pacer) (now : Nat) : Nat :=
  now - p.start

/-- How often something with a rate falls due in a time. -/
def due (elapsed rate : Nat) : Nat :=
  cut64 (elapsed * rate / second)

/-- The cycle on which a timer tick falls due. -/
def tickDeadline (tick rate : Nat) : Nat :=
  cut64 (tick * rate / ticksPerSecond)

/-- The cycles that should have passed by now. -/
def target (p : Pacer) (now : Nat) : Nat :=
  due (p.elapsed now) p.rate

/-- The timer ticks that should have been made by now. -/
def quota (p : Pacer) (now : Nat) : TimerMode → Nat
  | .fixed60Hz => due (p.elapsed now) ticksPerSecond
  -- as many as were made, so none is missing
  | .perInstruction => p.ticks

/-- The next timer tick is within the quota, and its cycle has come. -/
def tickIsDue (p : Pacer) (quota : Nat) : Prop :=
  p.ticks < quota ∧ tickDeadline (p.ticks + 1) p.rate ≤ p.cycles

instance (p : Pacer) (quota : Nat) : Decidable (p.tickIsDue quota) :=
  inferInstanceAs (Decidable (_ ∧ _))

variable {ρ : Type} [Host ρ]

/-- Ticks and steps the machine until no tick is due and the target is reached; `ran` and `told` are
what the poll executed and told so far. -/
def catchUp (target quota : Nat) (p : Pacer) (m : Machine ρ) (ran : Nat)
    (told : Array Event) : Polled ρ :=
  -- a tick goes before the instruction of its cycle
  if p.tickIsDue quota then
    catchUp target quota { p with ticks := p.ticks + 1 } m.tick ran (told ++ m.tickEvents)
  else if p.cycles < target then
    match m.step with
    | (.ran, after) =>
      catchUp target quota { p with cycles := p.cycles + 1 } after (ran + 1) (told ++ m.stepEvents)
    | (.blocked, after) =>
      -- the rest of the way is skipped, but the ticks on it are still made
      catchUp target quota { p with cycles := target } after ran
        ((told ++ m.stepEvents).push (.skippedTo target))
    | (.failed fault, after) => ⟨.error fault, p, after, told ++ m.stepEvents⟩
  else ⟨.ok ran, p, m, told⟩
termination_by (target - p.cycles) + (quota - p.ticks)
decreasing_by
  all_goals simp only [tickIsDue] at *
  all_goals omega

/-- Catches the machine up with the clock. -/
def poll (p : Pacer) (m : Machine ρ) (now : Nat) : Polled ρ :=
  catchUp (p.target now) (p.quota now m.variant.timerMode) p m 0 #[]

end Pacer

end Chip8
