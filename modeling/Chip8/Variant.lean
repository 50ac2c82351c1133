/-!
# Chip8 — variants of the machine

Machines of this kind agree on their instructions but for details. A variant fixes two of them: what
drives the timers, and which way the second instruction on keys skips.
-/

namespace Chip8

/-- What makes the timers count down. -/
inductive TimerMode where
  -- every instruction does
  | perInstruction
  -- the clock does, sixty times a second
  | fixed60Hz
  deriving DecidableEq

/-- The names of the timer modes. -/
def TimerMode.name : TimerMode → String
  | .perInstruction => "per-instruction"
  | .fixed60Hz => "fixed60hz"

/-- The timer mode with this very name. -/
def TimerMode.ofName? (name : String) : Option TimerMode :=
  [perInstruction, fixed60Hz].find? (·.name == name)

/-- The details that machines differ in. -/
structure Variant where
  timerMode : TimerMode := .perInstruction
  -- `Instruction.skipByKey` skips when the key is down, and not when it is up
  skipsOnKeyDown : Bool := true
  deriving DecidableEq

end Chip8
