import Chip8.Fault
import Chip8.Instruction
import Chip8.Keypad

/-!
# Chip8 — events

What can be said of a run while it goes on. The machine, the pacer, the host and the run around
them tell what they do as events; how an event reads, and how much it matters, is said in
`Chip8.Log`.
-/

namespace Chip8

/-- Something worth telling about a run. -/
inductive Event where
  /-- A program was put into memory; some of its declared bytes may be missing. -/
  | programLoaded (count size : Nat)
  /-- The program image with this name was loaded. -/
  | romLoaded (name : String)
  /-- An instruction was fetched after this many others. -/
  | fetched (cycles : Nat) (pc word : UInt16) (instr : Instruction)
  /-- The word at an address is no instruction. -/
  | notAnInstruction (pc word : UInt16)
  /-- A step waits for a key to store in a register. -/
  | waiting (cycles : Nat) (x : UInt8)
  /-- The wait for a key began. -/
  | waitBegan (x : UInt8)
  /-- A key ended the wait. -/
  | keyStored (key x : UInt8)
  /-- A change of a key that the keypad lacks. -/
  | noSuchKey (change : KeyChange)
  /-- A store into the font was dropped. -/
  | writeDropped (value : UInt8) (cell : Nat)
  /-- The delay timer ran out. -/
  | delayFinished
  /-- The sound timer was started. -/
  | soundStarted (ticks : UInt8)
  /-- The sound timer was stopped or ran out. -/
  | soundStopped
  /-- The host starts or stops a beep. -/
  | beep (on : Bool)
  /-- The pacer counts a waiting machine as caught up with its target. -/
  | skippedTo (target : Nat)
  /-- A change of a key is played. -/
  | keyPlayed (ms : Nat) (change : KeyChange)
  /-- A run begins. -/
  | runBegan (name : String) (size rate : Nat)
  /-- A run is over. -/
  | runEnded (cycles beeps : Nat)
  /-- The run of the file at a path failed. -/
  | runFailed (path reason : String)
  deriving DecidableEq

end Chip8
