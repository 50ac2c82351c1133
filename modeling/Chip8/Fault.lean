import Chip8.Text.Numeral

/-!
# Chip8 — faults

What makes a machine refuse: a load at the wrong time or of the wrong size, a word that is no
instruction, a call stack that is full or empty, a machine asked for without a host.
-/

namespace Chip8

/-- Why the machine refuses. -/
inductive Fault where
  -- a program was loaded or run already
  | notInitial
  -- the program has this many bytes too many
  | programTooLarge (excess : Nat)
  -- the word is no instruction
  | unknownOpcode (word : UInt16)
  -- the call at this address finds the stack full
  | stackOverflow (pc : UInt16)
  -- the return at this address finds the stack empty
  | stackUnderflow (pc : UInt16)
  -- no host was given to the machine
  | missingHost
  deriving DecidableEq

/-- What the user reads. -/
def Fault.message : Fault → String
  | .notInitial => "machine is not in its initial state"
  | .programTooLarge excess => s!"program too large to fit in memory ({excess} bytes over)"
  | .unknownOpcode word => "unknown opcode " ++ Numeral.address 4 word.toNat
  | .stackOverflow pc =>
    "cannot enter subroutine at " ++ Numeral.address 3 pc.toNat ++ ", stack is full"
  | .stackUnderflow pc =>
    "cannot return at " ++ Numeral.address 3 pc.toNat ++ ", not in subroutine"
  | .missingHost => "context not provided"

end Chip8
