import Chip8.Machine.Execute

/-!
# Chip8 — steps and ticks

A step fetches the word at the program counter, moves the counter past it, executes the instruction
and counts it. It does nothing while the machine waits for a key or when the word is no instruction,
and when the instruction is refused it moves the counter back. A tick counts both timers down; a
machine whose timers go by instructions ticks after each.
-/

namespace Chip8

/-- How a step went. -/
inductive Outcome where
  -- an instruction was executed
  | ran
  -- the machine waits for a key
  | blocked
  -- the next instruction cannot be executed
  | failed (fault : Fault)
  deriving DecidableEq

namespace Machine

variable {ρ : Type} [Host ρ]

/-- Both timers count down; the host is told when the sound runs out. -/
def tick (m : Machine ρ) : Machine ρ :=
  { m with
    delay := Timer.countdown m.delay
    sound := Timer.countdown m.sound
    host := if Timer.runsOut m.sound then Host.soundOff m.host else m.host }

/-- An executed instruction is counted, and the timers tick if instructions drive them. -/
def retire (m : Machine ρ) : Machine ρ :=
  let counted := { m with cycles := m.cycles + 1 }
  match m.variant.timerMode with
  | .perInstruction => counted.tick
  | .fixed60Hz => counted

/-- The instruction at the program counter. -/
def fetch (m : Machine ρ) : Except Fault Instruction :=
  Instruction.decode (m.memory.word m.pc)

/-- Executes an instruction that was fetched at the program counter. -/
def run (m : Machine ρ) (instr : Instruction) : Executed ρ :=
  execute instr { m with pc := nextAddress m.pc }

/-- One step. -/
def step (m : Machine ρ) : Outcome × Machine ρ :=
  if m.isWaiting then (.blocked, m)
  else
    match m.fetch with
    | .error fault => (.failed fault, m)
    | .ok instr =>
      match m.run instr with
      -- the counter had moved past the instruction and moves back
      | .refused fault after => (.failed fault, { after with pc := m.pc })
      | .done after => (.ran, after.retire)

/-! ## What a step and a tick tell -/

/-- What the host says when it is told of sound. -/
def beepEvents (_ : Machine ρ) (on : Bool) : List Event :=
  if Host.reportsSound ρ then [.beep on] else []

/-- What a tick tells. -/
def tickEvents (m : Machine ρ) : List Event :=
  (if Timer.runsOut m.delay then [.delayFinished] else []) ++
    (if Timer.runsOut m.sound then .soundStopped :: m.beepEvents false else [])

/-- What is told when the sound timer takes a value. -/
def setSoundEvents (m : Machine ρ) (value : UInt8) : List Event :=
  match Timer.isRunning m.sound, Timer.isRunning value with
  | false, true => .soundStarted value :: m.beepEvents true
  | true, false => .soundStopped :: m.beepEvents false
  | _, _ => []

/-- What is told of a store at the index register. -/
def storeEvents (m : Machine ρ) (bytes : List UInt8) : List Event :=
  (Memory.dropped m.i bytes).map fun drop => .writeDropped drop.1 drop.2

/-- What an instruction tells while it is executed. -/
def executeEvents (m : Machine ρ) : Instruction → List Event
  | .awaitKey x => [.waitBegan x]
  | .setSound x => m.setSoundEvents (m.reg x)
  | .storeDigits x => m.storeEvents (decimalDigits (m.reg x))
  | .storeRegisters x => m.storeEvents (m.v.toList.take (x.toNat + 1))
  | _ => []

/-- What is told after an instruction was executed. -/
def retireEvents (m : Machine ρ) : List Event :=
  match m.variant.timerMode with
  | .perInstruction => m.tickEvents
  | .fixed60Hz => []

/-- What a step tells. -/
def stepEvents (m : Machine ρ) : List Event :=
  match m.pending with
  | some x => [.waiting m.cycles x]
  | none =>
    let word := m.memory.word m.pc
    match m.fetch with
    | .error _ => [.notAnInstruction m.pc word]
    | .ok instr =>
      .fetched m.cycles m.pc word instr ::
        match m.run instr with
        | .refused _ _ => []
        | .done after => m.executeEvents instr ++ after.retireEvents

end Machine

end Chip8
